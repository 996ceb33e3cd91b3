import AssetBundler.Proofs.Compiler.Merged

/-!
The merged stream of several compilers as it is pulled. A compiler is opened when its first file is
asked for, and a file is compiled when its turn comes. Whoever pulls until the stream ends sees what
the loop over all compilers and all their files gives and does.
-/

namespace AssetBundler.Stream

open AssetBundler.Action

/-- The place that a merged stream has reached: between two compilers, or within one with the paths
that it has left. -/
inductive Cursor where
  | between (waiting : List PreparedCompiler)
  | within (prepared : PreparedCompiler) (paths : List Path) (waiting : List PreparedCompiler)

/-- The next compiler that selects a file is opened, and its first file is compiled. -/
def openNext (base : Path) : List PreparedCompiler → Action (Option (SourceFile × Cursor))
  | [] => return none
  | prepared :: waiting => do
      match ← Action.expand base prepared.compiler.patterns with
      | [] => openNext base waiting
      | path :: paths =>
          let source ← prepared.compile base path
          return some (source, .within prepared paths waiting)

namespace Cursor

/-- The next file, if there is one, and the place behind it. -/
def next (base : Path) : Cursor → Action (Option (SourceFile × Cursor))
  | .between waiting => openNext base waiting
  | .within _ [] waiting => openNext base waiting
  | .within prepared (path :: paths) waiting => do
      let source ← prepared.compile base path
      return some (source, .within prepared paths waiting)

end Cursor

/-- A stream is pulled until it ends or fails. -/
inductive Drains (base : Path) :
    Cursor → Workspace → Except Failure (List SourceFile) → Workspace → Prop
  | ended {cursor : Cursor} {workspace left : Workspace}
      (pulled : run (cursor.next base) workspace = (.ok none, left)) :
      Drains base cursor workspace (.ok []) left
  | failed {cursor : Cursor} {workspace left : Workspace} {failure : Failure}
      (pulled : run (cursor.next base) workspace = (.error failure, left)) :
      Drains base cursor workspace (.error failure) left
  | given {cursor later : Cursor} {workspace reached left : Workspace} {source : SourceFile}
      {result : Except Failure (List SourceFile)}
      (pulled : run (cursor.next base) workspace = (.ok (some (source, later)), reached))
      (rest : Drains base later reached result left) :
      Drains base cursor workspace (result.map fun sources => source :: sources) left

variable {base : Path}

/-- A place where the same comes next is drained in the same way. -/
theorem Drains.of_next {cursor other : Cursor} {workspace reached left : Workspace}
    {result : Except Failure (List SourceFile)}
    (same : run (other.next base) reached = run (cursor.next base) workspace)
    (drained : Drains base cursor workspace result left) :
    Drains base other reached result left := by
  cases drained with
  | ended pulled => exact .ended (same.trans pulled)
  | failed pulled => exact .failed (same.trans pulled)
  | given pulled rest => exact .given (same.trans pulled) rest

/-- Pulling is deterministic. -/
theorem Drains.unique {cursor : Cursor} {workspace left otherLeft : Workspace}
    {result other : Except Failure (List SourceFile)}
    (first : Drains base cursor workspace result left)
    (second : Drains base cursor workspace other otherLeft) :
    result = other ∧ left = otherLeft := by
  induction first generalizing other otherLeft with
  | ended pulled =>
      cases second with
      | ended again =>
          cases pulled.symm.trans again
          exact ⟨rfl, rfl⟩
      | failed again => cases pulled.symm.trans again
      | given again rest => cases pulled.symm.trans again
  | failed pulled =>
      cases second with
      | ended again => cases pulled.symm.trans again
      | failed again =>
          cases pulled.symm.trans again
          exact ⟨rfl, rfl⟩
      | given again rest => cases pulled.symm.trans again
  | given pulled rest inductionHypothesis =>
      cases second with
      | ended again => cases pulled.symm.trans again
      | failed again => cases pulled.symm.trans again
      | given again restAgain =>
          cases pulled.symm.trans again
          obtain ⟨sameResult, sameLeft⟩ := inductionHypothesis restAgain
          exact ⟨by rw [sameResult], sameLeft⟩

section Existence

variable {waiting : List PreparedCompiler}

/-- The paths of a compiler are pulled one after the other, and then the next compiler is opened. -/
theorem drains_within {prepared : PreparedCompiler} {others : Action (List SourceFile)}
    (later : ∀ workspace, Drains base (.between waiting) workspace
      (run others workspace).1 (run others workspace).2) (paths : List Path) :
    ∀ workspace, Drains base (.within prepared paths waiting) workspace
      (run (compileThen base prepared others paths) workspace).1
      (run (compileThen base prepared others paths) workspace).2 := by
  induction paths with
  | nil =>
      intro workspace
      rw [compileThen]
      refine (later workspace).of_next ?_
      rfl
  | cons path rest inductionHypothesis =>
      intro workspace
      rcases compiled : run (prepared.compile base path) workspace with ⟨failure | source, reached⟩
      · simp only [compileThen, run_bind, compiled]
        apply Drains.failed
        simp only [Cursor.next, run_bind, compiled]
      · have pulled : run ((Cursor.within prepared (path :: rest) waiting).next base) workspace =
            (.ok (some (source, .within prepared rest waiting)), reached) := by
          simp only [Cursor.next, run_bind, compiled, run_pure]
        have drained := Drains.given pulled (inductionHypothesis reached)
        simp only [compileThen, run_bind, compiled]
        rcases ended : run (compileThen base prepared others rest) reached with
          ⟨failure | sources, left⟩
        · rw [ended] at drained
          exact drained
        · rw [ended] at drained
          exact drained

/-- Every stream is drained, with the result of the loop over its compilers. -/
theorem drains_between (compilers : List PreparedCompiler) :
    ∀ workspace, Drains base (.between compilers) workspace
      (run (drain base compilers) workspace).1 (run (drain base compilers) workspace).2 := by
  induction compilers with
  | nil => exact fun workspace => .ended rfl
  | cons prepared waiting inductionHypothesis =>
      intro workspace
      rcases expanded : run (Action.expand base prepared.compiler.patterns) workspace with
        ⟨failure | paths, reached⟩
      · simp only [drain, run_bind, expanded]
        apply Drains.failed
        simp only [Cursor.next, openNext, run_bind, expanded]
      · simp only [drain, run_bind, expanded]
        refine (drains_within inductionHypothesis paths reached).of_next ?_
        cases paths with
        | nil => simp only [Cursor.next, openNext, run_bind, expanded]
        | cons path rest => simp only [Cursor.next, openNext, run_bind, expanded]

end Existence

/-- The files of all compilers in a loop. For each compiler all its patterns are expanded, and then
each file is read, transformed and finished. -/
def eagerly (base : Path) (compilers : List PreparedCompiler) : Action (List SourceFile) := do
  let files ← compilers.mapM fun prepared => do
    let paths ← Action.expand base prepared.compiler.patterns
    paths.mapM fun path => do
      let source ← Action.readSource base path
      let source ← prepared.transformSource source
      let source ← prepared.postProcess source
      Action.printWhen prepared.compiler.verbose ("+ " ++ source.relative)
      return source
  return files.flatten

theorem drain_eq_eagerly (base : Path) (compilers : List PreparedCompiler) :
    drain base compilers = eagerly base compilers := drain_eq base compilers

/-- A stream that is pulled to its end gives, records and fails with the same as the loop. -/
theorem drains_iff {compilers : List PreparedCompiler} {workspace left : Workspace}
    {result : Except Failure (List SourceFile)} :
    Drains base (.between compilers) workspace result left ↔
      run (eagerly base compilers) workspace = (result, left) := by
  rw [← drain_eq_eagerly]
  have drained : Drains base (.between compilers) workspace _ _ :=
    drains_between compilers workspace
  constructor
  · intro given
    obtain ⟨rfl, rfl⟩ := given.unique drained
    rfl
  · intro ran
    rw [ran] at drained
    exact drained

end AssetBundler.Stream

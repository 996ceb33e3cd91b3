import AssetBundler.Proofs.Builder.Effect

/-!
Builds that leave the tree as it was. Every stage of every file is over before the first directory
is made.
-/

namespace AssetBundler.Builder

/-- A bundle is ready when its parts are compiled, joined and minified. -/
def Ready (builder : Builder) (tree : Tree) (directory : Location) (sources : List SourceFile)
    (text : String) : Prop :=
  builder.parts tree (builder.sourceBase directory) = .ok sources ∧ sources ≠ [] ∧
    builder.minified (joinSources sources) = .ok text

/-- An assembly changes the tree only for a bundle that is ready, and then it gives the path of the
bundle or a fault of the tree. -/
theorem assembled_unchanged (builder : Builder) (folder name : String) (tree : Tree)
    (directory : Location) :
    (builder.assembled folder name tree directory).2 = tree ∨
      (∃ sources text, builder.Ready tree directory sources text) ∧
        ((∃ given path, (builder.assembled folder name tree directory).1 = .ok given ∧
            given.outputPath = some path) ∨
          ∃ fault, (builder.assembled folder name tree directory).1 = .error (.file fault)) := by
  rcases builder.assembled_cases folder name tree directory with
    ⟨failure, -, same⟩ | ⟨-, same⟩ | ⟨sources, failure, -, -, -, same⟩ |
      ⟨sources, text, compiledAs, filled, minifiedAs, delivers⟩
  · exact Or.inl (congrArg Prod.snd same)
  · exact Or.inl (congrArg Prod.snd same)
  · exact Or.inl (congrArg Prod.snd same)
  · right
    rw [delivers]
    refine ⟨⟨sources, text, (compiled_eq_ok.mp compiledAs).2, filled, minifiedAs⟩, ?_⟩
    rcases builder.delivered_cases folder name sources text tree directory with
      ⟨left, -, same⟩ | ⟨fault, left, same⟩
    · exact Or.inl ⟨_, _, congrArg Prod.fst same, rfl⟩
    · exact Or.inr ⟨fault, congrArg Prod.fst same⟩

/-- A build that fails leaves the tree as it was, unless the tree itself is to blame. So does a
build that selects nothing. Where the tree has changed, all stages of all files have passed. -/
theorem build_unchanged (builder : Builder) (output : String) (workspace : Workspace) :
    let result := (builder.build output workspace).1
    let left := (builder.build output workspace).2.2.tree
    (∀ failure, result = .error failure → (∀ fault, failure ≠ .file fault) →
        left = workspace.tree) ∧
      (∀ given, result = .ok given → given.outputPath = none → left = workspace.tree) ∧
      (left ≠ workspace.tree →
        ∃ sources text, builder.Ready workspace.tree workspace.directory sources text) := by
  cases checked : builder.checkBuild output with
  | error failure =>
      rw [build_refused checked]
      exact ⟨fun _ _ _ => rfl, fun _ _ _ => rfl, fun changed => absurd rfl changed⟩
  | ok place =>
      obtain ⟨events, ran⟩ := build_accepted checked workspace
      simp only [ran]
      rcases builder.assembled_unchanged place.1 place.2 workspace.tree workspace.directory with
        same | ⟨ready, outcome⟩
      · exact ⟨fun _ _ _ => same, fun _ _ _ => same, fun changed => absurd same changed⟩
      · refine ⟨?_, ?_, fun _ => ready⟩
        · intro failure failed blameless
          rcases outcome with ⟨given, path, built, -⟩ | ⟨fault, blamed⟩
          · cases built.symm.trans failed
          · cases blamed.symm.trans failed
            exact absurd rfl (blameless fault)
        · intro given built nothing
          rcases outcome with ⟨other, path, wrote, placed⟩ | ⟨fault, blamed⟩
          · cases wrote.symm.trans built
            cases placed.symm.trans nothing
          · cases blamed.symm.trans built

/-- A minifier that fails is the last stage of all. -/
theorem build_unchanged_sample :
    let refusing : Capability := fun _ _ _ => .error (.raised "RuntimeError" "no")
    let broken := { sample with registry := sample.registry.register "css-minify" refusing }
    (broken.build "out/all.css" sampleWorkspace).1 =
        .error (.capability (.raised "RuntimeError" "no")) ∧
      (broken.build "out/all.css" sampleWorkspace).2.2.tree = sampleWorkspace.tree := by
  intro refusing broken
  have failed : (broken.build "out/all.css" sampleWorkspace).1 =
      .error (.capability (.raised "RuntimeError" "no")) := by decide +kernel
  refine ⟨failed, (build_unchanged broken "out/all.css" sampleWorkspace).1 _ failed ?_⟩
  intro fault same
  cases same

end AssetBundler.Builder

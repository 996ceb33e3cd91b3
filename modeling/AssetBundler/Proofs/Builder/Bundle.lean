import AssetBundler.Proofs.Builder.Effect

/-!
The bundle that a build writes. It holds the parts of all selected files, compiler by compiler.
-/

namespace AssetBundler

namespace Compiler

variable {compiler : Compiler} {registry : Registry Capability} {tree : Tree} {base path : Path}

theorem origin_transformed {source changed : SourceFile}
    (made : compiler.transformed registry source = .ok changed) :
    changed.origin = source.origin := by
  unfold transformed at made
  split at made
  · cases made
    rfl
  · obtain ⟨text, -, renamed⟩ := Outcome.bind_eq_ok.mp made
    obtain ⟨path, -, same⟩ := Outcome.bind_eq_ok.mp renamed
    cases same
    rfl

theorem origin_finished {source changed : SourceFile}
    (made : compiler.finished registry source = .ok changed) :
    changed.origin = source.origin := by
  unfold finished at made
  split at made
  · split at made
    · cases made
      rfl
    · obtain ⟨text, -, same⟩ := Outcome.bind_eq_ok.mp made
      cases same
      rfl
  · split at made
    · obtain ⟨text, -, same⟩ := Outcome.bind_eq_ok.mp made
      cases same
      rfl
    · cases made
      rfl
  · cases made
    rfl

theorem exists_of_read {source : SourceFile} (made : Selection.read tree base path = .ok source) :
    ∃ text, source = .ofPath path base text := by
  unfold Selection.read at made
  split at made
  · cases made
  · split at made
    · cases made
      exact ⟨_, rfl⟩
    · cases made

theorem origin_read {source : SourceFile} (made : Selection.read tree base path = .ok source) :
    source.origin = path := by
  obtain ⟨text, rfl⟩ := exists_of_read made
  rfl

/-- A part remembers the path that it was read from. -/
theorem origin_part {source : SourceFile}
    (made : compiler.part registry tree base path = .ok source) : source.origin = path := by
  obtain ⟨fresh, wasRead, made⟩ := Outcome.bind_eq_ok.mp made
  obtain ⟨changed, wasTransformed, wasFinished⟩ := Outcome.bind_eq_ok.mp made
  rw [origin_finished wasFinished, origin_transformed wasTransformed, origin_read wasRead]

theorem expand_of_parts {sources : List SourceFile}
    (made : compiler.parts registry tree base = .ok sources) :
    Selection.expand tree base compiler.patterns = .ok (sources.map SourceFile.origin) := by
  obtain ⟨paths, expanded, compiled⟩ := Outcome.bind_eq_ok.mp made
  have origins : paths = sources.map SourceFile.origin := by
    have each := (Outcome.mapM_eq_ok.mp compiled).imp fun path source made =>
      (origin_part made).symm
    rwa [← List.forall₂_map_right_iff, List.forall₂_eq_eq_eq] at each
  rw [expanded, origins]

end Compiler

namespace Builder

/-- The paths of all files that the compilers select, in the order of the compilers. -/
def selected (builder : Builder) (tree : Tree) (base : Path) : Except Failure (List Path) := do
  let selections ← builder.compilers.mapM fun compiler =>
    Selection.expand tree base compiler.patterns
  return selections.flatten

theorem selected_of_parts {builder : Builder} {tree : Tree} {base : Path}
    {sources : List SourceFile} (made : builder.parts tree base = .ok sources) :
    builder.selected tree base = .ok (sources.map SourceFile.origin) := by
  obtain ⟨groups, compiled, same⟩ := Outcome.bind_eq_ok.mp made
  cases same
  have each := (Outcome.mapM_eq_ok.mp compiled).imp fun compiler sources made =>
    Compiler.expand_of_parts made
  have expanded := Outcome.mapM_eq_ok.mpr (List.forall₂_map_right_iff.mpr each)
  rw [selected, expanded, List.map_flatten]
  rfl

/-- What a build writes is the minified join of the parts of all selected files, then the comment
of the map. A build that selects nothing succeeds and writes nothing. A build succeeds with a bundle
where its parts are compiled and minified and the tree takes its files. -/
theorem build_bundle {builder : Builder} {output folder name : String}
    (accepted : builder.checkBuild output = .ok (folder, name))
    (equipped : ∀ needed ∈ builder.neededCapabilities, builder.registry.has needed = true)
    (workspace : Workspace) :
    let base := builder.sourceBase workspace.directory
    let result := (builder.build output workspace).1
    let left := (builder.build output workspace).2.2.tree
    (builder.parts workspace.tree base = .ok [] →
        result = .ok (emptyResult name) ∧ left = workspace.tree) ∧
      (∀ sources text stored, builder.parts workspace.tree base = .ok sources → sources ≠ [] →
        builder.minified (joinSources sources) = .ok text →
        workspace.tree.deliver workspace.directory (builder.base.joinText folder)
          (builder.files workspace.directory folder name sources text) = (.ok (), stored) →
        ∃ given, result = .ok given ∧
          given.outputPath = some ((builder.base.joinText folder).joinText name)) ∧
      ∀ given, result = .ok given →
        given.success = true ∧ ∃ sources,
          builder.parts workspace.tree base = .ok sources ∧
          builder.selected workspace.tree base = .ok (sources.map SourceFile.origin) ∧
          (given.outputPath = none ↔ sources = []) ∧
          ∀ path, given.outputPath = some path →
            path = (builder.base.joinText folder).joinText name ∧
            given.sources = sources.map SourceFile.origin ∧
            ∃ text, builder.minified (joinSources sources) = .ok text ∧
              let comment :=
                if ".css".toList <:+ name.toList then "/*# sourceMappingURL=" ++ name ++ ".map */"
                else "//# sourceMappingURL=" ++ name ++ ".map"
              let bundle := if builder.sourceMaps then text ++ "\n" ++ comment else text
              left.read workspace.directory path = .ok (Utf8.encode bundle) ∧
                given.size = (Utf8.encode bundle).length := by
  obtain ⟨events, ran⟩ := build_accepted accepted workspace
  simp only [ran]
  refine ⟨?_, ?_, ?_⟩
  · intro nothing
    have compiledAs := compiled_eq_ok.mpr ⟨equipped, nothing⟩
    simp only [assembled, compiledAs, and_self]
  · intro sources text stored made filled minifiedAs delivered
    have compiledAs := compiled_eq_ok.mpr ⟨equipped, made⟩
    exact ⟨_, congrArg Prod.fst (assembled_of_deliver compiledAs filled minifiedAs delivered), rfl⟩
  · intro given reached
    obtain ⟨sources, compiledAs, outcome⟩ := assembled_ok (Prod.ext reached rfl)
    have made := (compiled_eq_ok.mp compiledAs).2
    rcases outcome with ⟨rfl, rfl, -⟩ | ⟨filled, text, minifiedAs, rfl, delivered⟩
    · refine ⟨rfl, [], made, selected_of_parts made, by simp [emptyResult], ?_⟩
      intro path wrote
      cases wrote
    · refine ⟨rfl, sources, made, selected_of_parts made, by simp [deliveredResult, filled], ?_⟩
      intro path wrote
      cases wrote
      refine ⟨rfl, rfl, text, minifiedAs, ?_⟩
      rw [← comment_mapName]
      exact ⟨read_deliver delivered, rfl⟩

theorem build_bundle_sample :
    sample.checkBuild "out/all.css" = .ok ("out", "all.css") ∧
      (∀ needed ∈ sample.neededCapabilities, sample.registry.has needed = true) ∧
      (sample.build "out/all.css" sampleWorkspace).2.2.tree.read ["p"]
          ⟨.root, ["p", "out", "all.css"]⟩ =
        .ok (Utf8.encode ("css-minify(,autoprefixer(/p/b.css,sass(/p/b.scss,y))\nx)" ++ "\n" ++
          "/*# sourceMappingURL=all.css.map */")) := by
  have accepted : sample.checkBuild "out/all.css" = .ok ("out", "all.css") := by decide +kernel
  have equipped : ∀ needed ∈ sample.neededCapabilities, sample.registry.has needed = true := by
    decide +kernel
  have place : (sample.build "out/all.css" sampleWorkspace).1.toOption.bind
      BuildResult.outputPath = some ⟨.root, ["p", "out", "all.css"]⟩ := by decide +kernel
  have contents : (sample.parts sampleWorkspace.tree (sample.sourceBase ["p"]) >>= fun sources =>
      sample.minified (joinSources sources)) =
        .ok "css-minify(,autoprefixer(/p/b.css,sass(/p/b.scss,y))\nx)" := by decide +kernel
  have comment : (if ".css".toList <:+ "all.css".toList then
      "/*# sourceMappingURL=" ++ "all.css" ++ ".map */"
      else "//# sourceMappingURL=" ++ "all.css" ++ ".map") =
        "/*# sourceMappingURL=all.css.map */" := by decide +kernel
  refine ⟨accepted, equipped, ?_⟩
  obtain ⟨-, -, described⟩ := build_bundle accepted equipped sampleWorkspace
  cases built : (sample.build "out/all.css" sampleWorkspace).1 with
  | error failure =>
      rw [built] at place
      cases place
  | ok given =>
      rw [built] at place
      obtain ⟨-, sources, made, -, -, bundle⟩ := described given built
      obtain ⟨-, -, text, minifiedAs, holds, -⟩ := bundle _ place
      rw [show sampleWorkspace.directory = ["p"] from rfl] at made
      rw [made] at contents
      cases minifiedAs.symm.trans contents
      rw [comment] at holds
      exact holds

end Builder

end AssetBundler

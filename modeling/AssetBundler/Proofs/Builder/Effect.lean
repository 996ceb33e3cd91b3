import AssetBundler.Proofs.Builder.Artifacts
import AssetBundler.Proofs.Builder.Compilation
import AssetBundler.Proofs.Output

/-!
What a build gives and leaves, as a function of the builder, the output and the tree. A build
computes this function, and besides it only records events.
-/

namespace AssetBundler.Builder

open AssetBundler.Action

/-- The directory that the sources are selected from. -/
def sourceBase (builder : Builder) (directory : Location) : Path :=
  builder.base.absolute ⟨.root, directory⟩

/-- The parts of a bundle for which no capability is missing. -/
def compiled (builder : Builder) (tree : Tree) (directory : Location) :
    Except Failure (List SourceFile) := do
  builder.registry.demand builder.neededCapabilities
  builder.parts tree (builder.sourceBase directory)

/-- The map of the sources as seen from the directory of the bundle. -/
def mapOf (builder : Builder) (directory : Location) (folder name : String)
    (sources : List SourceFile) : SourceMap :=
  sourceMapOf name ((builder.base.joinText folder).absolute ⟨.root, directory⟩) sources

/-- The files of a bundle with the given minified contents. -/
def files (builder : Builder) (directory : Location) (folder name : String)
    (sources : List SourceFile) (text : String) : List (Path × Bytes) :=
  builder.artifacts (builder.base.joinText folder) name
    (builder.mapOf directory folder name sources) text

/-- What a bundle that was minified to the given text gives and leaves. -/
def delivered (builder : Builder) (folder name : String) (sources : List SourceFile)
    (text : String) (tree : Tree) (directory : Location) : Except Failure BuildResult × Tree :=
  let target := builder.base.joinText folder
  let stored := tree.deliver directory target (builder.files directory folder name sources text)
  (stored.1.mapError Failure.file |>.map fun _ =>
      builder.deliveredResult target name (builder.mapOf directory folder name sources) sources
        text,
    stored.2)

/-- The sources are joined and minified before anything is delivered. -/
def bundled (builder : Builder) (folder name : String) (sources : List SourceFile) (tree : Tree)
    (directory : Location) : Except Failure BuildResult × Tree :=
  match builder.minified (joinSources sources) with
  | .error failure => (.error failure, tree)
  | .ok text => builder.delivered folder name sources text tree directory

/-- What a build gives and leaves once its checks have passed. -/
def assembled (builder : Builder) (folder name : String) (tree : Tree) (directory : Location) :
    Except Failure BuildResult × Tree :=
  match builder.compiled tree directory with
  | .error failure => (.error failure, tree)
  | .ok [] => (.ok (emptyResult name), tree)
  | .ok (first :: rest) => builder.bundled folder name (first :: rest) tree directory

theorem observes_compiled (builder : Builder) :
    Observes anyEvent builder.compileSources builder.compiled := by
  cases demanded : builder.registry.demand builder.neededCapabilities with
  | error failure =>
      have missing := (observes_compileSources_missing builder demanded).weaken
      have same : builder.compiled = fun _ _ => .error failure := by
        funext tree directory
        rw [compiled, demanded]
        rfl
      rwa [same]
  | ok =>
      have same : builder.compiled = fun tree directory =>
          builder.parts tree (builder.sourceBase directory) := by
        funext tree directory
        rw [compiled, demanded]
        rfl
      rw [same]
      exact observes_compileSources builder (Registry.demand_eq_ok_iff.mp demanded)

theorem compiled_eq_ok {builder : Builder} {tree : Tree} {directory : Location}
    {sources : List SourceFile} :
    builder.compiled tree directory = .ok sources ↔
      (∀ needed ∈ builder.neededCapabilities, builder.registry.has needed = true) ∧
        builder.parts tree (builder.sourceBase directory) = .ok sources := by
  rw [compiled, Outcome.bind_eq_ok, ← Registry.demand_eq_ok_iff]
  constructor
  · rintro ⟨⟨⟩, equipped, made⟩
    exact ⟨equipped, made⟩
  · rintro ⟨equipped, made⟩
    exact ⟨(), equipped, made⟩

/-- The bundle of given sources, with the map as it is seen from a directory. -/
theorem performs_writeBundle (builder : Builder) {name : String} (clean : '/' ∉ name.toList)
    (target : Path) (map : SourceMap) (sources : List SourceFile) :
    Performs (builder.writeBundle target name map sources) fun tree directory =>
      match builder.minified (joinSources sources) with
      | .error failure => (.error failure, tree)
      | .ok text =>
          let stored := tree.deliver directory target (builder.artifacts target name map text)
          (stored.1.mapError Failure.file |>.map fun _ =>
              builder.deliveredResult target name map sources text,
            stored.2) := by
  rw [writeBundle_eq builder target name map sources clean]
  refine (Performs.bind (observes_minifyContents builder _).performs fun text =>
    Performs.bind (performs_deliverFiles builder target _) fun _ => Performs.pure _).congr ?_
  intro tree directory
  simp only [followedBy, fileEffect]
  cases builder.minified (joinSources sources) with
  | error failure => rfl
  | ok text =>
      simp only
      rcases tree.deliver directory target (builder.artifacts target name map text) with
        ⟨result, changed⟩
      cases result <;> rfl

/-- What is left to do when the sources are compiled. -/
theorem performs_fromSources (builder : Builder) (folder : String) {name : String}
    (clean : '/' ∉ name.toList) (sources : List SourceFile) :
    Performs
      (if sources.isEmpty then do
        Action.log logSource .warning ("No source files selected for " ++ name)
        return emptyResult name
      else do
        let target := builder.base.joinText folder
        let map := sourceMapOf name (← Action.absolute target) sources
        builder.writeBundle target name map sources)
      fun tree directory =>
        match sources with
        | [] => (.ok (emptyResult name), tree)
        | first :: rest => builder.bundled folder name (first :: rest) tree directory := by
  cases sources with
  | nil =>
      exact (Observes.after (Observes.recordAny _) (Observes.pure (emptyResult name))).performs
  | cons first rest =>
      exact Performs.bind (observes_absolute _).performs fun directory =>
        performs_writeBundle builder clean _ _ _

theorem performs_assemble (builder : Builder) (folder : String) {name : String}
    (clean : '/' ∉ name.toList) :
    Performs (builder.assemble folder name) (builder.assembled folder name) := by
  refine (Performs.bind (observes_compiled builder).performs
    (performs_fromSources builder folder clean)).congr ?_
  intro tree directory
  simp only [followedBy, assembled]
  cases builder.compiled tree directory with
  | error failure => rfl
  | ok sources => cases sources <;> rfl

theorem neededCapabilities_freeze (builder : Builder) :
    builder.freeze.neededCapabilities = builder.neededCapabilities := by
  have minifier : builder.freeze.minifierNames = builder.minifierNames := by
    simp only [minifierNames, freeze, List.head?_map]
    cases builder.compilers.head? <;> rfl
  rw [neededCapabilities, neededCapabilities, minifier, freeze, List.flatMap_map]
  rfl

theorem parts_freeze (builder : Builder) : builder.freeze.parts = builder.parts := by
  funext tree base
  simp only [parts, freeze, List.mapM_map]
  rfl

theorem minified_freeze (builder : Builder) : builder.freeze.minified = builder.minified := by
  funext contents
  unfold minified freeze
  cases builder.compilers <;> rfl

/-- Freezing has no part in what is assembled. -/
theorem assembled_freeze (builder : Builder) : builder.freeze.assembled = builder.assembled := by
  have compiledAlike : builder.freeze.compiled = builder.compiled := by
    funext tree directory
    rw [compiled, compiled, neededCapabilities_freeze, parts_freeze]
    rfl
  have bundledAlike : builder.freeze.bundled = builder.bundled := by
    funext folder name sources tree directory
    rw [bundled, bundled, minified_freeze]
    rfl
  funext folder name tree directory
  rw [assembled, assembled, compiledAlike, bundledAlike]

/-- A build that passes its checks has a compiler and an output with a name. -/
theorem checkBuild_eq_ok {builder : Builder} {output folder name : String} :
    builder.checkBuild output = .ok (folder, name) ↔
      builder.built = false ∧ builder.compilers ≠ [] ∧
        Output.split output = .ok (folder, name) := by
  cases built : builder.built <;> cases compilers : builder.compilers <;>
    simp [checkBuild, checkMutable, built, compilers, bind, Except.bind, throw, throwThe,
      MonadExceptOf.throw]

theorem build_refused {builder : Builder} {output : String} {failure : Failure}
    (refused : builder.checkBuild output = .error failure) (workspace : Workspace) :
    builder.build output workspace = (.error failure, builder, workspace) := by
  rw [build, refused]

/-- A build that passes its checks freezes the builder and gives and leaves what was assembled. -/
theorem build_accepted {builder : Builder} {output folder name : String}
    (accepted : builder.checkBuild output = .ok (folder, name)) (workspace : Workspace) :
    ∃ events, builder.build output workspace =
      ((builder.assembled folder name workspace.tree workspace.directory).1, builder.freeze,
        { workspace with
          tree := (builder.assembled folder name workspace.tree workspace.directory).2
          events := events ++ workspace.events }) := by
  have clean := Output.slash_not_mem_of_split (checkBuild_eq_ok.mp accepted).2.2
  obtain ⟨events, ran⟩ := performs_assemble builder.freeze folder clean workspace
  refine ⟨events, ?_⟩
  simp only [build, accepted, ran, assembled_freeze]

/-- The ways that an assembly can go. Only the last one leads to the tree. -/
theorem assembled_cases (builder : Builder) (folder name : String) (tree : Tree)
    (directory : Location) :
    (∃ failure, builder.compiled tree directory = .error failure ∧
        builder.assembled folder name tree directory = (.error failure, tree)) ∨
      (builder.compiled tree directory = .ok [] ∧
        builder.assembled folder name tree directory = (.ok (emptyResult name), tree)) ∨
      (∃ sources failure, builder.compiled tree directory = .ok sources ∧ sources ≠ [] ∧
        builder.minified (joinSources sources) = .error failure ∧
        builder.assembled folder name tree directory = (.error failure, tree)) ∨
      ∃ sources text, builder.compiled tree directory = .ok sources ∧ sources ≠ [] ∧
        builder.minified (joinSources sources) = .ok text ∧
        builder.assembled folder name tree directory =
          builder.delivered folder name sources text tree directory := by
  unfold assembled
  cases builder.compiled tree directory with
  | error failure => exact Or.inl ⟨failure, rfl, rfl⟩
  | ok sources =>
      cases sources with
      | nil => exact Or.inr (Or.inl ⟨rfl, rfl⟩)
      | cons first rest =>
          unfold bundled
          right
          right
          cases minifiedAs : builder.minified (joinSources (first :: rest)) with
          | error failure =>
              refine Or.inl ⟨first :: rest, failure, rfl, List.cons_ne_nil _ _, minifiedAs, ?_⟩
              simp only [minifiedAs]
          | ok text =>
              refine Or.inr ⟨first :: rest, text, rfl, List.cons_ne_nil _ _, minifiedAs, ?_⟩
              simp only [minifiedAs]

/-- A bundle is delivered when the tree takes all its files, and the tree is to blame otherwise. -/
theorem delivered_cases (builder : Builder) (folder name : String) (sources : List SourceFile)
    (text : String) (tree : Tree) (directory : Location) :
    (∃ left, tree.deliver directory (builder.base.joinText folder)
          (builder.files directory folder name sources text) = (.ok (), left) ∧
        builder.delivered folder name sources text tree directory =
          (.ok (builder.deliveredResult (builder.base.joinText folder) name
            (builder.mapOf directory folder name sources) sources text), left)) ∨
      ∃ fault left,
        builder.delivered folder name sources text tree directory =
          (.error (.file fault), left) := by
  rcases stored : tree.deliver directory (builder.base.joinText folder)
    (builder.files directory folder name sources text) with ⟨outcome, left⟩
  cases outcome with
  | ok =>
      refine Or.inl ⟨left, rfl, ?_⟩
      simp only [delivered, stored]
      rfl
  | error fault =>
      refine Or.inr ⟨fault, left, ?_⟩
      simp only [delivered, stored]
      rfl

/-- A result without a file comes from a selection without a file, and any other result describes
the bundle that can then be read at its path. -/
theorem assembled_ok {builder : Builder} {folder name : String} {tree left : Tree}
    {directory : Location} {given : BuildResult}
    (reached : builder.assembled folder name tree directory = (.ok given, left)) :
    ∃ sources, builder.compiled tree directory = .ok sources ∧
      (sources = [] ∧ given = emptyResult name ∧ left = tree ∨
        sources ≠ [] ∧ ∃ text, builder.minified (joinSources sources) = .ok text ∧
          given = builder.deliveredResult (builder.base.joinText folder) name
            (builder.mapOf directory folder name sources) sources text ∧
          tree.deliver directory (builder.base.joinText folder)
            (builder.files directory folder name sources text) = (.ok (), left)) := by
  rcases builder.assembled_cases folder name tree directory with
    ⟨failure, -, failed⟩ | ⟨compiledAs, empty⟩ | ⟨sources, failure, -, -, -, failed⟩ |
      ⟨sources, text, compiledAs, filled, minifiedAs, delivers⟩
  · rw [failed] at reached
    cases reached
  · rw [empty] at reached
    cases reached
    exact ⟨[], compiledAs, Or.inl ⟨rfl, rfl, rfl⟩⟩
  · rw [failed] at reached
    cases reached
  · rw [delivers] at reached
    rcases builder.delivered_cases folder name sources text tree directory with
      ⟨stored, delivered, same⟩ | ⟨fault, stored, failed⟩
    · rw [same] at reached
      cases reached
      exact ⟨sources, compiledAs, Or.inr ⟨filled, text, minifiedAs, rfl, delivered⟩⟩
    · rw [failed] at reached
      cases reached

/-- A bundle that is compiled and minified is left to be delivered. -/
theorem assembled_eq_delivered {builder : Builder} {folder name : String} {tree : Tree}
    {directory : Location} {sources : List SourceFile} {text : String}
    (compiledAs : builder.compiled tree directory = .ok sources) (filled : sources ≠ [])
    (minifiedAs : builder.minified (joinSources sources) = .ok text) :
    builder.assembled folder name tree directory =
      builder.delivered folder name sources text tree directory := by
  cases sources with
  | nil => exact absurd rfl filled
  | cons first rest => simp only [assembled, compiledAs, bundled, minifiedAs]

/-- A bundle that is ready is delivered where the tree takes its files. -/
theorem assembled_of_deliver {builder : Builder} {folder name : String} {tree left : Tree}
    {directory : Location} {sources : List SourceFile} {text : String}
    (compiledAs : builder.compiled tree directory = .ok sources) (filled : sources ≠ [])
    (minifiedAs : builder.minified (joinSources sources) = .ok text)
    (taken : tree.deliver directory (builder.base.joinText folder)
      (builder.files directory folder name sources text) = (.ok (), left)) :
    builder.assembled folder name tree directory =
      (.ok (builder.deliveredResult (builder.base.joinText folder) name
        (builder.mapOf directory folder name sources) sources text), left) := by
  rw [assembled_eq_delivered compiledAs filled minifiedAs, delivered, taken]
  rfl

theorem read_deliver {builder : Builder} {folder name : String} {tree left : Tree}
    {directory : Location} {sources : List SourceFile} {text : String}
    (delivered : tree.deliver directory (builder.base.joinText folder)
      (builder.files directory folder name sources text) = (.ok (), left)) :
    left.read directory ((builder.base.joinText folder).joinText name) =
      .ok (Utf8.encode (builder.bundleText name text)) := by
  unfold Tree.deliver at delivered
  split at delivered
  · exact Tree.read_writeFiles delivered
  · cases delivered

/-- A capability that leaves its name and its subject in the text. -/
def marking (name : String) : String × Capability :=
  (name, fun contents subject _ => .ok (name ++ "(" ++ subject ++ "," ++ contents ++ ")"))

def styleCompiler (dialect : Dialect) (file : String) (prefixing : Bool) : Compiler :=
  { Compiler.create dialect false with
    table := SelectorTable.addFile {} file
    prefixing := prefixing }

/-- Two style sheets, of which the first one is transformed and prefixed. -/
def sample : Builder :=
  { registry := [marking "sass", marking "autoprefixer", marking "css-minify"]
    base := ⟨.root, ["p"]⟩
    runtime := ""
    verbose := false
    showsProgress := false
    compilers := [styleCompiler .scss "b.scss" true, styleCompiler .css "a.css" false]
    sourceMaps := true
    minify := true }

def sampleWorkspace : Workspace :=
  { tree := ⟨[(["p"], .directory), (["p", "a.css"], .file [120]), (["p", "b.scss"], .file [121])]⟩
    directory := ["p"] }

end AssetBundler.Builder

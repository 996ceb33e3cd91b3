import AssetBundler.Builder.Definition
import AssetBundler.Proofs.Failure.Outcome
import AssetBundler.Proofs.Text.CodePoint

/-!
Which definitions a builder can be made from, what its compilers are then, and which source is
blamed when there is no builder. The settings of a source are checked one after the other, so each
group of settings is a check with a list of faults, and the checks are put together.
-/

namespace AssetBundler

open Outcome

section Judged

variable {Value Result : Type}

/-- The first fault speaks for all of them. -/
def judged (faults : List Validation) (value : Value) : Except Failure Value :=
  match faults with
  | fault :: _ => .error (.validation fault)
  | [] => .ok value

/-- Checks in a row are one check with the faults of all of them. -/
theorem judged_bind {faults others : List Validation} {value : Value} {result : Result}
    {next : Value → Except Failure Result} (follows : next value = judged others result) :
    (judged faults value >>= next) = judged (faults ++ others) result := by
  cases faults with
  | nil => exact follows
  | cons fault rest => rfl

end Judged

namespace SourceDefinition

variable (source : SourceDefinition) (dialect : Dialect)

/-- The table that lists the files and directories of a source. -/
def table : SelectorTable where
  kinds := Assoc.merge [] (source.files.map (·, .file) ++ source.paths.map (·, .directory))
  patterns := source.files ++ source.paths.map fun path =>
    SelectorTable.directoryPattern path (source.extension.getD dialect.extension)

/-- The compiler that a source of a dialect asks for. -/
def compiler (verbose : Bool) : Compiler where
  kind := .ofFamily dialect.family
  dialect := dialect
  verbose := verbose
  table := source.table dialect
  scope := if source.scope = "" then "" else ModuleId.normalizeNamespace source.scope
  wrapOptions := if source.scope = "" then [] else [("auto_require", .bool source.autoRequire)]
  presets := dialect.presets ++ source.presets
  plugins := source.plugins
  bare := source.bare
  prefixing := source.prefixing
  prefixOptions := if source.prefixing then source.prefixOptions else []

/-- A source without settings that lists a script. -/
def ofScript (path : String) : SourceDefinition where
  name := ""
  dialect := Dialect.js.name
  files := [path]

/-- What a dialect asks of the settings of a source. -/
structure Suits : Prop where
  closed : ∀ path ∈ source.paths, ∃ front, path = front ++ "/" ∨ path = front ++ "\\"
  presets : dialect.family = .script → source.presets ≠ [] → dialect ∈ [.babel, .es6, .es7]
  plugins : dialect.family = .script → source.plugins ≠ [] → dialect ∈ [.babel, .es6, .es7]
  bare : dialect.family = .script → source.bare = true → dialect = .coffee
  unprefixed : dialect.family = .script → source.prefixing = false
  unscripted : dialect.family = .style →
    source.scope = "" ∧ source.presets = [] ∧ source.plugins = [] ∧ source.bare = false

/-- The source names a known dialect and suits it. -/
def IsAccepted : Prop :=
  ∃ dialect : Dialect, dialect.name = Text.lower (Text.strip source.dialect) ∧
    source.Suits dialect

/-- The directories that lack a separator at the end. -/
def pathFaults : List Validation :=
  (source.paths.filter fun path => !SelectorTable.endsWithSeparator path).map fun path =>
    .openDirectory ⟨path⟩

def scriptFaults : List Validation :=
  (if source.presets ≠ [] ∧ ¬dialect.isBabel then [.presetsUnsupported dialect] else []) ++
  ((if source.plugins ≠ [] ∧ ¬dialect.isBabel then [.pluginsUnsupported dialect] else []) ++
  ((if source.bare ∧ dialect ≠ .coffee then [.bareUnsupported dialect] else []) ++
  (if source.prefixing then [.styleOnly] else [])))

def styleFaults : List Validation :=
  if Builder.asksForScript source then [.scriptOnly] else []

/-- The compiler is the one of the dialect that the source names. -/
def IsMade (verbose : Bool) (compiler : Compiler) : Prop :=
  ∃ dialect : Dialect, dialect.name = Text.lower (Text.strip source.dialect) ∧
    compiler = source.compiler dialect verbose

/-- What speaks against a source of a dialect, in the order in which it is found. -/
def faults : List Validation :=
  source.pathFaults ++
    match dialect.family with
    | .script => source.scriptFaults dialect
    | .style => source.styleFaults

/-- What a source is refused for. A dialect that is not known speaks for itself. -/
def refusal? : Option SourceFault :=
  match Dialect.ofName? (Text.lower (Text.strip source.dialect)) with
  | none => some (.dialect ⟨source.dialect⟩)
  | some dialect => (source.faults dialect).head?.map .invalid

theorem endsWithSeparator_iff (path : String) :
    SelectorTable.endsWithSeparator path = true ↔
      ∃ front, path = front ++ "/" ∨ path = front ++ "\\" := by
  have ends (c : Char) :
      path.toList.getLast? = some c ↔ ∃ front, path = front ++ String.ofList [c] := by
    constructor
    · intro last
      obtain ⟨front, split⟩ := List.getLast?_eq_some_iff.mp last
      refine ⟨String.ofList front, ?_⟩
      rw [← String.ofList_append, ← split, String.ofList_toList]
    · rintro ⟨front, rfl⟩
      simp
  simp only [SelectorTable.endsWithSeparator, Option.any_eq_true, SelectorTable.isSeparator,
    Bool.or_eq_true, beq_iff_eq, and_or_left, exists_or, exists_eq_right, ends]

theorem pathFaults_eq_nil :
    source.pathFaults = [] ↔
      ∀ path ∈ source.paths, ∃ front, path = front ++ "/" ∨ path = front ++ "\\" := by
  simp [pathFaults, endsWithSeparator_iff]

theorem isBabel_iff : dialect.isBabel = true ↔ dialect ∈ [.babel, .es6, .es7] := by
  cases dialect <;> decide

/-- A source suits a dialect when nothing speaks against it. -/
theorem faults_eq_nil : source.faults dialect = [] ↔ source.Suits dialect := by
  rw [faults, List.append_eq_nil_iff, pathFaults_eq_nil]
  cases family : dialect.family with
  | script =>
      constructor
      · rintro ⟨closed, clear⟩
        simp only [scriptFaults, List.append_eq_nil_iff, ite_eq_right_iff, List.cons_ne_nil,
          imp_false, not_and, not_not, isBabel_iff] at clear
        obtain ⟨presets, plugins, bare, unprefixed⟩ := clear
        refine ⟨closed, fun _ => presets, fun _ => plugins, fun _ => bare, fun _ => ?_, ?_⟩
        · simpa using unprefixed
        · intro style
          rw [family] at style
          cases style
      · intro suits
        refine ⟨suits.closed, ?_⟩
        simp only [scriptFaults, List.append_eq_nil_iff, ite_eq_right_iff, List.cons_ne_nil,
          imp_false, not_and, not_not, isBabel_iff]
        exact ⟨suits.presets family, suits.plugins family, suits.bare family,
          by simpa using suits.unprefixed family⟩
  | style =>
      have plain : source.styleFaults = [] ↔
          source.scope = "" ∧ source.presets = [] ∧ source.plugins = [] ∧ source.bare = false := by
        simp [styleFaults, Builder.asksForScript, and_assoc]
      rw [plain]
      constructor
      · rintro ⟨closed, unscripted⟩
        refine ⟨closed, ?_, ?_, ?_, ?_, fun _ => unscripted⟩ <;>
          · intro script
            rw [family] at script
            cases script
      · exact fun suits => ⟨suits.closed, suits.unscripted family⟩

theorem ofName?_eq_some {name : String} :
    Dialect.ofName? name = some dialect ↔ dialect.name = name := by
  constructor
  · intro found
    simpa using List.find?_some found
  · rintro rfl
    exact Dialect.ofName?_name dialect

/-- Only a source that is not accepted is refused. -/
theorem refusal?_eq_none : source.refusal? = none ↔ source.IsAccepted := by
  simp only [IsAccepted, ← ofName?_eq_some]
  unfold refusal?
  cases named : Dialect.ofName? (Text.lower (Text.strip source.dialect)) with
  | none => simp
  | some dialect => simp [faults_eq_nil]

end SourceDefinition

namespace Builder

section Settings

variable (compiler : Compiler) (thawed : compiler.frozen = false)
include thawed

theorem files_configured (files : List String) :
    (files.map Setting.file).foldlM Compiler.configure compiler =
      .ok { compiler with table :=
        ⟨Assoc.merge compiler.table.kinds (files.map (·, .file)),
          compiler.table.patterns ++ files⟩ } := by
  induction files generalizing compiler with
  | nil => simp [Assoc.merge, pure, Except.pure]
  | cons file rest inductionHypothesis =>
      let changed : Compiler := { compiler with table := compiler.table.addFile file }
      have added : compiler.configure (.file file) = .ok changed := by
        simp [Compiler.configure, Compiler.addFile, Compiler.checkMutable, thawed, bind,
          Except.bind, pure, Except.pure, changed]
      rw [List.map_cons, List.foldlM_cons, added]
      refine (inductionHypothesis changed thawed).trans ?_
      simp [changed, SelectorTable.addFile, Assoc.merge]

theorem paths_configured (paths : List String) (extension : Option String) :
    (paths.map (Setting.directory · extension)).foldlM Compiler.configure compiler =
      judged ((paths.filter fun path => !SelectorTable.endsWithSeparator path).map fun path =>
          .openDirectory ⟨path⟩)
        { compiler with table :=
          ⟨Assoc.merge compiler.table.kinds (paths.map (·, .directory)),
            compiler.table.patterns ++ paths.map fun path =>
              SelectorTable.directoryPattern path
                (extension.getD compiler.dialect.extension)⟩ } := by
  induction paths generalizing compiler with
  | nil => simp [Assoc.merge, pure, Except.pure, judged]
  | cons path rest inductionHypothesis =>
      rw [List.map_cons, List.foldlM_cons]
      cases closed : SelectorTable.endsWithSeparator path with
      | false =>
          simp [Compiler.configure, Compiler.addDirectory, SelectorTable.addDirectory,
            Compiler.checkMutable, thawed, closed, bind, Except.bind, throw, throwThe,
            MonadExceptOf.throw, judged]
      | true =>
          let changed : Compiler := { compiler with table :=
            ⟨Assoc.insert compiler.table.kinds path .directory, compiler.table.patterns ++
              [SelectorTable.directoryPattern path
                (extension.getD compiler.dialect.extension)]⟩ }
          have added : compiler.configure (.directory path extension) = .ok changed := by
            simp [Compiler.configure, Compiler.addDirectory, SelectorTable.addDirectory,
              Compiler.checkMutable, thawed, closed, bind, Except.bind, pure, Except.pure, changed]
          rw [added]
          refine (inductionHypothesis changed thawed).trans ?_
          simp [changed, closed, Assoc.merge]

/-- The selectors of a source are listed whatever its dialect is. -/
theorem fileSettings_configured (source : SourceDefinition) (empty : compiler.table = {}) :
    (fileSettings source).foldlM Compiler.configure compiler =
      judged source.pathFaults { compiler with table := source.table compiler.dialect } := by
  let listed : Compiler := { compiler with table :=
    ⟨Assoc.merge [] (source.files.map (·, .file)), source.files⟩ }
  have files : (source.files.map Setting.file).foldlM Compiler.configure compiler = .ok listed := by
    rw [files_configured compiler thawed, empty]
    rfl
  rw [fileSettings, List.foldlM_append, files]
  refine (paths_configured listed thawed _ _).trans ?_
  simp [listed, SourceDefinition.table, SourceDefinition.pathFaults, Assoc.merge]

section Script

variable (source : SourceDefinition) (script : compiler.kind = .script)
include script

theorem scope_configured (plain : compiler.scope = "" ∧ compiler.wrapOptions = []) :
    (if source.scope = "" then []
      else [Setting.scope source.scope [("auto_require", .bool source.autoRequire)]]).foldlM
        Compiler.configure compiler =
      pure { compiler with
        scope := if source.scope = "" then "" else ModuleId.normalizeNamespace source.scope
        wrapOptions :=
          if source.scope = "" then [] else [("auto_require", .bool source.autoRequire)] } := by
  have unmatched :
      compiler.checkScopeOptions [("auto_require", .bool source.autoRequire)] = .ok () := by
    simp [Compiler.checkScopeOptions, Compiler.scopeArguments]
  by_cases named : source.scope = ""
  · simp [named, ← plain.1, ← plain.2]
  · simp [named, Compiler.configure, Compiler.setScope, Compiler.checkKind,
      Compiler.checkMutable, thawed, script, unmatched, bind, Except.bind, pure, Except.pure]

theorem presets_configured :
    (if source.presets.isEmpty then [] else [Setting.presets source.presets]).foldlM
        Compiler.configure compiler =
      judged (if source.presets ≠ [] ∧ ¬compiler.dialect.isBabel then
          [.presetsUnsupported compiler.dialect] else [])
        { compiler with presets := compiler.presets ++ source.presets } := by
  cases source.presets with
  | nil => simp [judged, pure, Except.pure]
  | cons preset rest =>
      cases babel : compiler.dialect.isBabel <;>
        simp [judged, Compiler.configure, Compiler.addPresets, Compiler.checkKind,
          Compiler.checkMutable, thawed, script, babel, bind, Except.bind, pure, Except.pure, throw,
          throwThe, MonadExceptOf.throw]

theorem plugins_configured :
    (if source.plugins.isEmpty then [] else [Setting.plugins source.plugins]).foldlM
        Compiler.configure compiler =
      judged (if source.plugins ≠ [] ∧ ¬compiler.dialect.isBabel then
          [.pluginsUnsupported compiler.dialect] else [])
        { compiler with plugins := compiler.plugins ++ source.plugins } := by
  cases source.plugins with
  | nil => simp [judged, pure, Except.pure]
  | cons plugin rest =>
      cases babel : compiler.dialect.isBabel <;>
        simp [judged, Compiler.configure, Compiler.addPlugins, Compiler.checkKind,
          Compiler.checkMutable, thawed, script, babel, bind, Except.bind, pure, Except.pure, throw,
          throwThe, MonadExceptOf.throw]

theorem bare_configured (plain : compiler.bare = false) :
    (if source.bare then [Setting.bare true] else []).foldlM Compiler.configure compiler =
      judged (if source.bare ∧ compiler.dialect ≠ .coffee then
          [.bareUnsupported compiler.dialect] else [])
        { compiler with bare := source.bare } := by
  cases source.bare with
  | false =>
      have same : { compiler with bare := false } = compiler := by rw [← plain]
      simp [same, judged, pure, Except.pure]
  | true =>
      by_cases coffee : compiler.dialect = .coffee <;>
        simp [judged, Compiler.configure, Compiler.setBare, Compiler.checkKind,
          Compiler.checkMutable, thawed, script, coffee, bind, Except.bind, pure, Except.pure,
          throw, throwThe, MonadExceptOf.throw]

end Script

theorem style_configured (source : SourceDefinition) (style : compiler.kind = .style)
    (plain : compiler.prefixing = false ∧ compiler.prefixOptions = []) :
    (styleSettings source).foldlM Compiler.configure compiler =
      .ok { compiler with
        prefixing := source.prefixing
        prefixOptions := if source.prefixing then source.prefixOptions else [] } := by
  rw [styleSettings]
  cases source.prefixing with
  | false =>
      have same : { compiler with prefixing := false, prefixOptions := [] } = compiler := by
        rw [← plain.1, ← plain.2]
      simp [same, pure, Except.pure]
  | true =>
      simp [Compiler.configure, Compiler.setPrefixing, Compiler.checkKind,
        Compiler.checkMutable, thawed, style, bind, Except.bind, pure, Except.pure]

end Settings

section Source

variable (source : SourceDefinition) (dialect : Dialect) (verbose : Bool)

/-- The compiler of a source before its family is asked for. -/
def listed : Compiler := { Compiler.create dialect verbose with table := source.table dialect }

/-- The settings for scripts are checked one after the other, and prefixing comes last. -/
theorem listed_script (script : dialect.family = .script) :
    ((scriptSettings source).foldlM Compiler.configure (listed source dialect verbose) >>=
      fun compiler =>
        if source.prefixing then throw (.validation .styleOnly) else return compiler) =
      judged (source.scriptFaults dialect) (source.compiler dialect verbose) := by
  have kind : ∀ compiler : Compiler, compiler.kind = .ofFamily dialect.family →
      compiler.kind = .script := by
    rintro compiler same
    rw [same, script]
    rfl
  simp only [scriptSettings, List.foldlM_append, bind_assoc]
  rw [scope_configured _ rfl source (kind _ rfl) ⟨rfl, rfl⟩, pure_bind,
    presets_configured _ rfl source (kind _ rfl)]
  refine judged_bind ?_
  rw [plugins_configured _ rfl source (kind _ rfl)]
  refine judged_bind ?_
  rw [bare_configured _ rfl source (kind _ rfl) rfl]
  refine judged_bind ?_
  cases prefixed : source.prefixing with
  | true => rfl
  | false =>
      simp [SourceDefinition.compiler, prefixed, listed, Compiler.create, judged, pure, Except.pure]

theorem listed_style (style : dialect.family = .style) :
    (if asksForScript source then throw (.validation .scriptOnly)
      else (styleSettings source).foldlM Compiler.configure (listed source dialect verbose)) =
      judged source.styleFaults (source.compiler dialect verbose) := by
  have kind : (listed source dialect verbose).kind = .style := by
    rw [listed, Compiler.create, style]
    rfl
  rw [SourceDefinition.styleFaults, style_configured _ rfl source kind ⟨rfl, rfl⟩]
  by_cases asked : asksForScript source = true
  · rw [if_pos asked, if_pos asked]
    rfl
  · have plain := asked
    simp only [asksForScript, Bool.or_eq_true, bne_iff_ne, ne_eq, Bool.not_eq_true',
      List.isEmpty_eq_false_iff, not_or, not_not, Bool.not_eq_true] at plain
    obtain ⟨⟨⟨unnamed, presets⟩, plugins⟩, bare⟩ := plain
    rw [if_neg asked, if_neg asked]
    simp [SourceDefinition.compiler, unnamed, presets, plugins, bare, listed, Compiler.create,
      judged]

/-- A source is turned into its compiler unless something speaks against it. -/
theorem configureSource_eq :
    configureSource (Compiler.create dialect verbose) source =
      judged (source.faults dialect) (source.compiler dialect verbose) := by
  rw [configureSource, fileSettings_configured _ rfl source rfl]
  refine judged_bind ?_
  change (match dialect.family with
    | .script =>
        (scriptSettings source).foldlM Compiler.configure (listed source dialect verbose) >>= _
    | .style => _) = _
  cases family : dialect.family with
  | script => exact listed_script source dialect verbose family
  | style => exact listed_style source dialect verbose family

/-- A source is made into its compiler, or its refusal is told with its name. -/
theorem sourceCompiler_ends :
    (source.refusal? = none ∧ ∃ compiler, sourceCompiler verbose source = .ok compiler ∧
      source.IsMade verbose compiler) ∨
    ∃ fault, source.refusal? = some fault ∧
      sourceCompiler verbose source = .error (.config (.source source.name fault)) := by
  unfold sourceCompiler Dialect.parse SourceDefinition.refusal?
  cases named : Dialect.ofName? (Text.lower (Text.strip source.dialect)) with
  | none => exact .inr ⟨_, rfl, rfl⟩
  | some dialect =>
      simp only [configureSource_eq]
      cases source.faults dialect with
      | nil =>
          have same := (SourceDefinition.ofName?_eq_some dialect).mp named
          exact .inl ⟨rfl, _, rfl, dialect, same, rfl⟩
      | cons fault rest => exact .inr ⟨.invalid fault, rfl, rfl⟩

theorem sourceCompiler_eq_ok {compiler : Compiler}
    (made : sourceCompiler verbose source = .ok compiler) :
    source.IsAccepted ∧ source.IsMade verbose compiler := by
  rcases sourceCompiler_ends source verbose with ⟨clear, other, same, isMade⟩ | ⟨fault, _, failed⟩
  · rw [made] at same
    cases same
    exact ⟨source.refusal?_eq_none.mp clear, isMade⟩
  · rw [made] at failed
    cases failed

theorem sourceCompiler_eq_error {failure : Failure}
    (failed : sourceCompiler verbose source = .error failure) :
    ¬source.IsAccepted ∧ ∃ fault, source.refusal? = some fault ∧
      failure = .config (.source source.name fault) := by
  rcases sourceCompiler_ends source verbose with ⟨_, other, made, _⟩ | ⟨fault, refused, same⟩
  · rw [failed] at made
    cases made
  · rw [failed] at same
    refine ⟨?_, fault, refused, Except.error.inj same⟩
    rw [← source.refusal?_eq_none, refused]
    exact Option.some_ne_none fault

end Source

/-- The scripts that come before the sources of a bundle. -/
def scripts (runtime : String) (bundle : BundleDefinition) : List String :=
  (if bundle.commonJs then [runtime] else []) ++
    match bundle.polyfill with
    | none => []
    | some path => if path = "" then [] else [path]

theorem polyfill_toList (polyfill : Option String) :
    (polyfill.filter (· != "")).toList =
      match polyfill with
      | none => []
      | some path => if path = "" then [] else [path] := by
  cases polyfill with
  | none => rfl
  | some path => by_cases blank : path = "" <;> simp [blank, Option.filter]

end Builder

end AssetBundler

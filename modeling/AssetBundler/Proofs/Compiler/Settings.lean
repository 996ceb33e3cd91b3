import AssetBundler.Proofs.Compiler.Frozen
import AssetBundler.Proofs.Compiler.Identifiers
import AssetBundler.Proofs.SelectorTable

/-!
Compilers that are reached by settings. A setting that is refused leaves the compiler as it is, and
one that is taken keeps what holds of all compilers of the dialect.
-/

namespace AssetBundler

open Outcome
open SelectorTable (OpenDirectory Registration)

namespace Compiler

variable {compiler changed : Compiler} {setting : Setting} {dialect : Dialect}

section Stages

open Routine (Stage)

/-- A stage of a call on the table of a compiler. -/
def onTable : Stage SelectorTable OpenDirectory → Stage Compiler Failure
  | .check passes => .check fun compiler =>
      (passes compiler.table).mapError fun fault => .validation (.openDirectory fault)
  | .assign change => .assign fun compiler => { compiler with table := change compiler.table }

/-- A setting that only some dialects support. -/
def checkDialect (supports : Dialect → Prop) [DecidablePred supports]
    (fault : Dialect → Validation) (compiler : Compiler) : Except Failure Unit :=
  if supports compiler.dialect then .ok () else .error (.validation (fault compiler.dialect))

/-- What the call of a setting checks and assigns. -/
def routine (compiler : Compiler) : Setting → Routine Compiler Failure
  | .file path => .check checkMutable :: (Registration.file path).routine.map onTable
  | .directory path extension =>
      .check checkMutable ::
        (Registration.directory path
          (extension.getD compiler.dialect.extension)).routine.map onTable
  | .scope name options =>
      [.check (checkKind · .script "namespace"), .check (checkScopeOptions · options),
        .check checkMutable,
        .assign fun compiler => { compiler with
          scope := if name = "" then "" else ModuleId.normalizeNamespace name },
        .assign fun compiler => { compiler with wrapOptions := options }]
  | .presets names =>
      [.check (checkKind · .script "preset"), .check checkMutable,
        .check (checkDialect (·.isBabel = true) .presetsUnsupported),
        .assign fun compiler => { compiler with presets := compiler.presets ++ names }]
  | .plugins names =>
      [.check (checkKind · .script "plugin"), .check checkMutable,
        .check (checkDialect (·.isBabel = true) .pluginsUnsupported),
        .assign fun compiler => { compiler with plugins := compiler.plugins ++ names }]
  | .bare enabled =>
      [.check (checkKind · .script "bare"), .check checkMutable,
        .check (checkDialect (· = .coffee) .bareUnsupported),
        .assign fun compiler => { compiler with bare := enabled }]
  | .prefixing enabled options =>
      [.check (checkKind · .style "autoprefix"), .check checkMutable,
        .assign fun compiler => { compiler with prefixing := enabled },
        .assign fun compiler => { compiler with prefixOptions := options }]
  | .freeze => [.assign freeze]

theorem perform_onTable (routine : Routine SelectorTable OpenDirectory) (compiler : Compiler) :
    Routine.perform compiler (routine.map onTable) =
      ((Routine.perform compiler.table routine).1.mapError fun fault =>
          .validation (.openDirectory fault),
        { compiler with table := (Routine.perform compiler.table routine).2 }) := by
  induction routine generalizing compiler with
  | nil => rfl
  | cons stage rest inductionHypothesis =>
      cases stage with
      | check passes =>
          rw [List.map_cons, onTable, Routine.perform, Routine.perform]
          cases passes compiler.table with
          | ok => exact inductionHypothesis compiler
          | error fault => rfl
      | assign change => exact inductionHypothesis { compiler with table := change compiler.table }

theorem perform_checkDialect {supports : Dialect → Prop} [DecidablePred supports]
    {fault : Dialect → Validation} {change : Compiler → Compiler} :
    Routine.perform compiler [.check (checkDialect supports fault), .assign change] =
      Routine.keep compiler (if supports compiler.dialect then .ok (change compiler)
        else .error (.validation (fault compiler.dialect))) := by
  by_cases supported : supports compiler.dialect
  · rw [Routine.perform, checkDialect, if_pos supported, if_pos supported]
    rfl
  · rw [Routine.perform, checkDialect, if_neg supported, if_neg supported]
    rfl

/-- The stages of a call do what the setting does, and nothing when it is refused. -/
theorem perform_routine (compiler : Compiler) (setting : Setting) :
    Routine.perform compiler (compiler.routine setting) =
      Routine.keep compiler (compiler.configure setting) := by
  cases setting with
  | file path => exact Routine.perform_check rfl _
  | directory path extension =>
      apply Routine.perform_check
      rw [perform_onTable, SelectorTable.perform_routine, SelectorTable.register]
      cases compiler.table.addDirectory path (extension.getD compiler.dialect.extension) <;> rfl
  | scope name options =>
      exact Routine.perform_check (Routine.perform_check (Routine.perform_check rfl _) _) _
  | presets names =>
      exact Routine.perform_check (Routine.perform_check perform_checkDialect _) _
  | plugins names =>
      exact Routine.perform_check (Routine.perform_check perform_checkDialect _) _
  | bare enabled =>
      exact Routine.perform_check (Routine.perform_check perform_checkDialect _) _
  | prefixing enabled options => exact Routine.perform_check (Routine.perform_check rfl _) _
  | freeze => rfl

end Stages

section Taken

/-- What a setting asks of a compiler, and what it changes. -/
def Takes (compiler changed : Compiler) : Setting → Prop
  | .file path => changed = { compiler with table := compiler.table.addFile path }
  | .directory path extension => ∃ table,
      compiler.table.addDirectory path (extension.getD compiler.dialect.extension) = .ok table ∧
        changed = { compiler with table := table }
  | .scope name options => compiler.kind = .script ∧
      changed = { compiler with
        scope := if name = "" then "" else ModuleId.normalizeNamespace name
        wrapOptions := options }
  | .presets names => compiler.kind = .script ∧ compiler.dialect.isBabel = true ∧
      changed = { compiler with presets := compiler.presets ++ names }
  | .plugins names => compiler.kind = .script ∧ compiler.dialect.isBabel = true ∧
      changed = { compiler with plugins := compiler.plugins ++ names }
  | .bare enabled => compiler.kind = .script ∧ compiler.dialect = .coffee ∧
      changed = { compiler with bare := enabled }
  | .prefixing enabled options => compiler.kind = .style ∧
      changed = { compiler with prefixing := enabled, prefixOptions := options }
  | .freeze => changed = compiler.freeze

theorem checkKind_eq_ok {kind : CompilerKind} {call : String} :
    compiler.checkKind kind call = .ok () ↔ compiler.kind = kind := by
  rw [checkKind]
  split <;> simp [*]

/-- A call of one kind of compilers that only some dialects support. -/
theorem supported_of_guarded {kind : CompilerKind} {call : String} {supported : Prop}
    [Decidable supported] {next : Compiler} {fault : Validation}
    (taken : (do
      compiler.checkKind kind call
      compiler.checkMutable
      if supported then return next else throw (.validation fault) : Except Failure Compiler) =
        .ok changed) : compiler.kind = kind ∧ supported ∧ changed = next := by
  obtain ⟨⟨⟩, isKind, rest⟩ := bind_eq_ok.mp taken
  obtain ⟨⟨⟩, -, rest⟩ := bind_eq_ok.mp rest
  split at rest
  · next holds =>
    cases rest
    exact ⟨checkKind_eq_ok.mp isKind, holds, rfl⟩
  · cases rest

theorem takes_of_configure (taken : compiler.configure setting = .ok changed) :
    compiler.Takes changed setting := by
  cases setting with
  | file path =>
      obtain ⟨⟨⟩, -, rest⟩ := bind_eq_ok.mp taken
      cases rest
      rfl
  | directory path extension =>
      obtain ⟨⟨⟩, -, rest⟩ := bind_eq_ok.mp taken
      split at rest
      · next table added =>
        cases rest
        exact ⟨table, added, rfl⟩
      · cases rest
  | scope name options =>
      obtain ⟨⟨⟩, isKind, rest⟩ := bind_eq_ok.mp taken
      obtain ⟨⟨⟩, -, rest⟩ := bind_eq_ok.mp rest
      obtain ⟨⟨⟩, -, rest⟩ := bind_eq_ok.mp rest
      cases rest
      exact ⟨checkKind_eq_ok.mp isKind, rfl⟩
  | presets names => exact supported_of_guarded taken
  | plugins names => exact supported_of_guarded taken
  | bare enabled => exact supported_of_guarded taken
  | prefixing enabled options =>
      obtain ⟨⟨⟩, isKind, rest⟩ := bind_eq_ok.mp taken
      obtain ⟨⟨⟩, -, rest⟩ := bind_eq_ok.mp rest
      cases rest
      exact ⟨checkKind_eq_ok.mp isKind, rfl⟩
  | freeze =>
      cases taken
      rfl

end Taken

section Reached

/-- The dialects that are compiled with presets and plugins. -/
def babelDialects : List Dialect := [.babel, .es6, .es7]

/-- What holds of every compiler of a dialect. -/
structure IsOf (dialect : Dialect) (compiler : Compiler) : Prop where
  ofDialect : compiler.dialect = dialect
  ofFamily : compiler.kind = .ofFamily dialect.family
  scope : compiler.scope = "" ∨
    '\\' ∉ compiler.scope.toList ∧ compiler.scope.toList.getLast? = some '/'
  presets : ∃ added, compiler.presets = dialect.presets ++ added
  babel : compiler.presets ≠ dialect.presets ∨ compiler.plugins ≠ [] → dialect ∈ babelDialects
  bare : compiler.bare = true → dialect = .coffee
  style : dialect.family = .style → compiler.scope = ""
  script : dialect.family = .script → compiler.prefixing = false

theorem isOf_create (dialect : Dialect) (verbose : Bool) :
    (create dialect verbose).IsOf dialect where
  ofDialect := rfl
  ofFamily := rfl
  scope := .inl rfl
  presets := ⟨[], (List.append_nil _).symm⟩
  babel := by simp [create]
  bare := by simp [create]
  style _ := rfl
  script _ := rfl

theorem IsOf.family_eq (isOf : compiler.IsOf dialect) {family : Family}
    (isKind : compiler.kind = .ofFamily family) : dialect.family = family := by
  rw [isOf.ofFamily] at isKind
  cases same : dialect.family <;> cases family <;> simp [same, CompilerKind.ofFamily] at isKind ⊢

theorem IsOf.mem_babelDialects (isOf : compiler.IsOf dialect)
    (isBabel : compiler.dialect.isBabel = true) : dialect ∈ babelDialects :=
  (SourceDefinition.isBabel_iff dialect).mp (isOf.ofDialect ▸ isBabel)

/-- A setting that is taken keeps what holds of the compilers of a dialect. -/
theorem IsOf.takes (isOf : compiler.IsOf dialect) (takes : compiler.Takes changed setting) :
    changed.IsOf dialect := by
  cases setting with
  | file path =>
      cases takes
      exact { isOf with }
  | directory path extension =>
      obtain ⟨table, -, rfl⟩ := takes
      exact { isOf with }
  | scope name options =>
      obtain ⟨script, rfl⟩ := takes
      have family : dialect.family = .script := isOf.family_eq script
      refine { isOf with scope := ?_, style := ?_ }
      · by_cases empty : name = ""
        · exact .inl (if_pos empty)
        · obtain ⟨text, spelled, ends, plain⟩ := ModuleId.exists_normalizeNamespace name
          refine .inr ?_
          simp only [if_neg empty, spelled, String.toList_ofList]
          exact ⟨plain, ends⟩
      · intro style
        rw [family] at style
        cases style
  | presets names =>
      obtain ⟨-, isBabel, rfl⟩ := takes
      obtain ⟨added, before⟩ := isOf.presets
      refine { isOf with presets := ⟨added ++ names, ?_⟩, babel := ?_ }
      · simp only [before, List.append_assoc]
      · exact fun _ => isOf.mem_babelDialects isBabel
  | plugins names =>
      obtain ⟨-, isBabel, rfl⟩ := takes
      exact { isOf with babel := fun _ => isOf.mem_babelDialects isBabel }
  | bare enabled =>
      obtain ⟨-, coffee, rfl⟩ := takes
      exact { isOf with bare := fun _ => isOf.ofDialect.symm.trans coffee }
  | prefixing enabled options =>
      obtain ⟨style, rfl⟩ := takes
      have family : dialect.family = .style := isOf.family_eq style
      refine { isOf with script := ?_ }
      intro script
      rw [family] at script
      cases script
  | freeze =>
      cases takes
      exact { isOf with }

theorem IsOf.perform (isOf : compiler.IsOf dialect) (setting : Setting) :
    (Routine.perform compiler (compiler.routine setting)).2.IsOf dialect := by
  rw [perform_routine]
  cases taken : compiler.configure setting with
  | ok changed => exact isOf.takes (takes_of_configure taken)
  | error failure => exact isOf

/-- The compiler after settings that are made one after another, also if some are refused. -/
def after (compiler : Compiler) (settings : List Setting) : Compiler :=
  (Routine.run routine compiler settings).2

theorem isOf_after (dialect : Dialect) (verbose : Bool) (settings : List Setting) :
    ((create dialect verbose).after settings).IsOf dialect :=
  Routine.run_preserves (IsOf dialect) (fun _ setting isOf => isOf.perform setting)
    (isOf_create dialect verbose) settings

/-- A frozen compiler stays as it is. -/
theorem after_frozen (frozen : compiler.frozen = true) (settings : List Setting) :
    compiler.after settings = compiler := by
  refine Routine.run_preserves (· = compiler) ?_ rfl settings
  rintro _ setting rfl
  rw [perform_routine]
  cases taken : Compiler.configure _ setting with
  | ok changed => exact configure_frozen_ok frozen taken
  | error failure => rfl

/-- The presets and the plugins, as the transform of a babel dialect is told of them. -/
def babelOptions (compiler : Compiler) : Options :=
  [("presets", .array (compiler.presets.map fun name => .string (CodeText.ofString name))),
    ("plugins", .array (compiler.plugins.map fun name => .string (CodeText.ofString name)))]

theorem IsOf.transformOptions_eq (isOf : compiler.IsOf dialect) :
    compiler.transformOptions =
      if dialect ∈ babelDialects then compiler.babelOptions
      else if dialect = .coffee ∧ compiler.bare = true then [("bare", .bool true)]
      else [] := by
  rw [transformOptions, isOf.ofFamily, isOf.ofDialect]
  cases dialect <;> rfl

/-- What the transform is told shows which dialect it is for, and whether it is bare. -/
theorem IsOf.transformOptions_iff (isOf : compiler.IsOf dialect) :
    (compiler.transformOptions = compiler.babelOptions ↔ dialect ∈ babelDialects) ∧
      (compiler.transformOptions = ([("bare", .bool true)] : Options) ↔
        dialect = .coffee ∧ compiler.bare = true) ∧
      (compiler.transformOptions = [] ↔
        dialect ∉ babelDialects ∧ ¬(dialect = .coffee ∧ compiler.bare = true)) := by
  rw [isOf.transformOptions_eq]
  by_cases isBabel : dialect ∈ babelDialects
  · have notCoffee : dialect ≠ .coffee := by
      rintro rfl
      exact absurd isBabel (by decide)
    simp [isBabel, notCoffee, babelOptions]
  · by_cases isBare : dialect = .coffee ∧ compiler.bare = true
    · obtain ⟨rfl, bare⟩ := isBare
      simp [isBabel, bare, babelOptions]
    · simp [isBabel, isBare, babelOptions]

/-- Every compiler that settings reach is one of its dialect, and tells the transform what the
dialect has. A setting that is refused leaves it as it is in all respects, and once it is frozen no
later setting changes it. -/
theorem settings_reach (dialect : Dialect) (verbose : Bool) (settings : List Setting) :
    let reached := (create dialect verbose).after settings
    reached.IsOf dialect ∧
      ((reached.transformOptions = reached.babelOptions ↔ dialect ∈ babelDialects) ∧
        (reached.transformOptions = ([("bare", .bool true)] : Options) ↔
          dialect = .coffee ∧ reached.bare = true) ∧
        (reached.transformOptions = [] ↔
          dialect ∉ babelDialects ∧ ¬(dialect = .coffee ∧ reached.bare = true))) ∧
      (∀ setting,
        Routine.perform reached (reached.routine setting) =
            Routine.keep reached (reached.configure setting) ∧
          ∀ failure changed,
            Routine.perform reached (reached.routine setting) = (.error failure, changed) →
              changed = reached) ∧
      (reached.frozen = true →
        ∀ later, (create dialect verbose).after (settings ++ later) = reached) := by
  intro reached
  have isOf : reached.IsOf dialect := isOf_after dialect verbose settings
  refine ⟨isOf, isOf.transformOptions_iff, ?_, ?_⟩
  · intro setting
    have performed := perform_routine reached setting
    exact ⟨performed, fun failure changed refused =>
      Routine.keep_error (performed.symm.trans refused)⟩
  · intro frozen later
    rw [after, Routine.run_append]
    exact after_frozen frozen later

/-- Presets are refused by a dialect without them, and nothing is taken after the freeze. -/
theorem settings_reach_sample :
    let settings := [Setting.scope "a\\b" [], .presets ["react"], .bare true, .freeze]
    let reached := (create .coffee false).after settings
    reached.frozen = true ∧
      reached.scope = "a/b/" ∧
      reached.presets = [] ∧
      reached.IsOf .coffee ∧
      (reached.transformOptions = ([("bare", .bool true)] : Options) ↔
        Dialect.coffee = .coffee ∧ reached.bare = true) ∧
      (create .coffee false).after (settings ++ [.file "main.coffee"]) = reached := by
  intro settings reached
  obtain ⟨isOf, ⟨-, isBare, -⟩, -, stays⟩ := settings_reach .coffee false settings
  exact ⟨rfl, by decide +kernel, rfl, isOf, isBare, stays rfl _⟩

end Reached

end Compiler

end AssetBundler

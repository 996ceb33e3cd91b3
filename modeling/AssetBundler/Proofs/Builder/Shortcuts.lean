import AssetBundler.Proofs.Builder.Lifecycle
import AssetBundler.Proofs.Compiler.Settings

/-!
Shortcuts that add a compiler and hand it to a callback. The compiler is listed before the callback
runs, so a callback that fails leaves behind what it has done so far.
-/

namespace AssetBundler

/-- What a caller does with a new compiler. It goes on with the answer to each setting, and it may
fail at any time. -/
inductive Callback where
  | done
  | raise (failure : Failure)
  | make (setting : Setting) (next : Except Failure Unit → Callback)

namespace Callback

variable {compiler left : Compiler} {failure : Failure}

/-- The callback that fails with the first setting that is refused. -/
def ofSettings : List Setting → Callback
  | [] => .done
  | setting :: rest => .make setting fun
      | .ok () => ofSettings rest
      | .error failure => .raise failure

/-- The callback that is done where the other one fails. -/
def quiet : Callback → Callback
  | .done => .done
  | .raise _ => .done
  | .make setting next => .make setting fun answer => (next answer).quiet

def run (compiler : Compiler) : Callback → Except Failure Unit × Compiler
  | .done => (.ok (), compiler)
  | .raise failure => (.error failure, compiler)
  | .make setting next =>
      let (answer, changed) := Routine.keep compiler (compiler.configure setting)
      run changed (next answer)

/-- The settings that are made, also those that are refused. -/
def made (compiler : Compiler) : Callback → List Setting
  | .done => []
  | .raise _ => []
  | .make setting next =>
      let (answer, changed) := Routine.keep compiler (compiler.configure setting)
      setting :: made changed (next answer)

theorem run_made (compiler : Compiler) (callback : Callback) :
    (callback.run compiler).2 = compiler.after (callback.made compiler) := by
  induction callback generalizing compiler with
  | done => rfl
  | raise failure => rfl
  | make setting next inductionHypothesis =>
      rw [run, made, inductionHypothesis, Compiler.after, Compiler.after, Routine.run_cons,
        Compiler.perform_routine]

theorem quiet_run (compiler : Compiler) (callback : Callback) :
    callback.quiet.run compiler = (.ok (), (callback.run compiler).2) := by
  induction callback generalizing compiler with
  | done => rfl
  | raise failure => rfl
  | make setting next inductionHypothesis => exact inductionHypothesis _ _

theorem ofSettings_run (compiler : Compiler) (settings : List Setting) :
    (ofSettings settings).run compiler = compiler.configureAll settings := by
  induction settings generalizing compiler with
  | nil => rfl
  | cons setting rest inductionHypothesis =>
      rw [ofSettings, run, Compiler.configureAll]
      cases compiler.configure setting with
      | ok changed => exact inductionHypothesis changed
      | error failure => rfl

/-- A setting is refused behind settings that are taken. -/
theorem ofSettings_error {settings : List Setting}
    (failed : (ofSettings settings).run compiler = (.error failure, left)) :
    ∃ taken refused rest, settings = taken ++ refused :: rest ∧
      compiler.configureAll taken = (.ok (), left) ∧ left.configure refused = .error failure := by
  rw [ofSettings_run] at failed
  induction settings generalizing compiler with
  | nil => cases failed
  | cons setting rest inductionHypothesis =>
      rw [Compiler.configureAll] at failed
      cases answer : compiler.configure setting with
      | error refusal =>
          rw [answer] at failed
          cases failed
          exact ⟨[], setting, rest, rfl, rfl, answer⟩
      | ok changed =>
          rw [answer] at failed
          obtain ⟨taken, refused, others, split, before, last⟩ := inductionHypothesis failed
          refine ⟨setting :: taken, refused, others, by rw [split, List.cons_append], ?_, last⟩
          rw [Compiler.configureAll, answer]
          exact before

end Callback

namespace Builder

variable {builder : Builder}

/-- The callback works on the compiler at a place. -/
def follow (builder : Builder) (index : Nat) : Callback → Except Failure Unit × Builder
  | .done => (.ok (), builder)
  | .raise failure => (.error failure, builder)
  | .make setting next =>
      let (answer, changed) := builder.configure index setting
      changed.follow index (next answer)

/-- A compiler is added first, and the callback works on it then. -/
def addWith (builder : Builder) (dialect : Dialect) (callback : Callback) :
    Except Failure Unit × Builder :=
  match builder.addCompiler dialect with
  | .error failure => (.error failure, builder)
  | .ok added => added.follow builder.compilers.length callback

/-- A call that adds a compiler. -/
inductive Shortcut where
  | dialect (dialect : Dialect) (callback : Callback)
  | runtime
  | polyfill (path : String)

def invoke (builder : Builder) : Shortcut → Except Failure Unit × Builder
  | .dialect dialect callback => builder.addWith dialect callback
  | .runtime => builder.addRuntime
  | .polyfill path => builder.addPolyfill path

/-- The builder with one more compiler. -/
def extend (builder : Builder) (compiler : Compiler) : Builder :=
  { builder with compilers := builder.compilers ++ [compiler] }

theorem configureAll_eq_follow (builder : Builder) (index : Nat) (settings : List Setting) :
    builder.configureAll index settings = builder.follow index (.ofSettings settings) := by
  induction settings generalizing builder with
  | nil => rfl
  | cons setting rest inductionHypothesis =>
      rw [configureAll, Callback.ofSettings, follow]
      rcases builder.configure index setting with ⟨answer, changed⟩
      cases answer with
      | ok => exact inductionHypothesis changed
      | error failure => rfl

/-- Settings are a callback that fails with the first one that is refused. -/
theorem addConfigured_eq_addWith (builder : Builder) (dialect : Dialect)
    (settings : List Setting) :
    builder.addConfigured dialect settings = builder.addWith dialect (.ofSettings settings) := by
  rw [addConfigured, addWith]
  cases builder.addCompiler dialect with
  | error failure => rfl
  | ok added => exact configureAll_eq_follow added _ settings

theorem configure_extend (builder : Builder) (compiler : Compiler) (setting : Setting) :
    (builder.extend compiler).configure builder.compilers.length setting =
      ((Routine.keep compiler (compiler.configure setting)).1,
        builder.extend (Routine.keep compiler (compiler.configure setting)).2) := by
  have found : (builder.extend compiler).compilers[builder.compilers.length]? = some compiler :=
    List.getElem?_concat_length
  cases answer : compiler.configure setting with
  | error failure => exact configure_refused found answer
  | ok changed =>
      rw [configure_taken found answer, extend, List.set_append_right _ _ le_rfl, Nat.sub_self]
      rfl

/-- A callback that works on the last compiler leaves all others alone. -/
theorem follow_extend (builder : Builder) (compiler : Compiler) (callback : Callback) :
    (builder.extend compiler).follow builder.compilers.length callback =
      ((callback.run compiler).1, builder.extend (callback.run compiler).2) := by
  induction callback generalizing compiler with
  | done => rfl
  | raise failure => rfl
  | make setting next inductionHypothesis =>
      rw [follow, configure_extend]
      exact inductionHypothesis _ _

theorem addWith_built (built : builder.built = true) (dialect : Dialect) (callback : Callback) :
    builder.addWith dialect callback = (.error .builderBuilt, builder) := by
  have refused : builder.addCompiler dialect = .error .builderBuilt := by
    rw [addCompiler, checkMutable, if_pos built]
    rfl
  rw [addWith, refused]

theorem addWith_open (isOpen : builder.built = false) (dialect : Dialect) (callback : Callback) :
    builder.addWith dialect callback =
      ((callback.run (.create dialect builder.verbose)).1,
        builder.extend (callback.run (.create dialect builder.verbose)).2) := by
  have added : builder.addCompiler dialect =
      .ok (builder.extend (.create dialect builder.verbose)) := by
    have passed : builder.checkMutable = .ok () := by
      rw [checkMutable, isOpen]
      rfl
    rw [addCompiler, passed]
    rfl
  rw [addWith, added]
  exact follow_extend builder _ callback

theorem invoke_built (built : builder.built = true) (shortcut : Shortcut) :
    builder.invoke shortcut = (.error .builderBuilt, builder) := by
  cases shortcut with
  | dialect dialect callback => exact addWith_built built dialect callback
  | runtime =>
      rw [invoke, addRuntime, addConfigured_eq_addWith]
      exact addWith_built built .js _
  | polyfill path =>
      rw [invoke, addPolyfill, addConfigured_eq_addWith]
      exact addWith_built built .js _

/-- The compiler of one script always takes its file. -/
theorem addScript_error {after : Builder} {path : String} {failure : Failure}
    (raised : builder.addConfigured .js [.file path] = (.error failure, after)) :
    builder.built = true := by
  cases isOpen : builder.built with
  | true => rfl
  | false =>
      rw [addConfigured_eq_addWith, addWith_open isOpen] at raised
      cases raised

/-- The new compiler is asked for the minifier only if it is the first one. -/
theorem minifierNames_extend (builder : Builder) (compiler : Compiler) :
    (builder.extend compiler).minifierNames =
      if builder.compilers = [] ∧ builder.minify = true then compiler.kind.minifier?.toList
      else builder.minifierNames := by
  rw [minifierNames, minifierNames, extend]
  cases builder.compilers <;> cases builder.minify <;> rfl

/-- A shortcut fails on a builder that was built, and changes nothing then. Otherwise its callback
has failed, and the new compiler stays behind all others as the callback has left it. The builder is
the one after the same call with a callback that is done at this point. -/
theorem shortcut_raises {builder after : Builder} {shortcut : Shortcut} {failure : Failure}
    (raised : builder.invoke shortcut = (.error failure, after)) :
    (builder.built = true ∧ failure = .builderBuilt ∧ after = builder) ∨
      (builder.built = false ∧
        ∃ dialect callback, shortcut = .dialect dialect callback ∧
          ∃ left : Compiler,
            callback.run (.create dialect builder.verbose) = (.error failure, left) ∧
            left = (Compiler.create dialect builder.verbose).after
              (callback.made (.create dialect builder.verbose)) ∧
            after = { builder with compilers := builder.compilers ++ [left] } ∧
            builder.invoke (.dialect dialect callback.quiet) = (.ok (), after) ∧
            after.minifierNames =
              (if builder.compilers = [] ∧ builder.minify = true
                then (CompilerKind.ofFamily dialect.family).minifier?.toList
                else builder.minifierNames) ∧
            ∀ settings, callback = .ofSettings settings →
              ∃ taken refused rest, settings = taken ++ refused :: rest ∧
                (Compiler.create dialect builder.verbose).configureAll taken = (.ok (), left) ∧
                left.configure refused = .error failure) := by
  rcases Bool.eq_false_or_eq_true builder.built with built | isOpen
  · cases (invoke_built built shortcut).symm.trans raised
    exact .inl ⟨built, rfl, rfl⟩
  · refine .inr ⟨isOpen, ?_⟩
    cases shortcut with
    | dialect dialect callback =>
        rw [invoke, addWith_open isOpen] at raised
        obtain ⟨failed, same⟩ := Prod.mk.inj raised
        have reached := Callback.run_made (.create dialect builder.verbose) callback
        have isOf := Compiler.isOf_after dialect builder.verbose
          (callback.made (.create dialect builder.verbose))
        refine ⟨dialect, callback, rfl, _, Prod.ext failed rfl, reached, same.symm, ?_, ?_, ?_⟩
        · rw [invoke, addWith_open isOpen, Callback.quiet_run, same]
        · rw [← same, minifierNames_extend, reached, isOf.ofFamily]
        · rintro settings rfl
          exact Callback.ofSettings_error (Prod.ext failed rfl)
    -- A new compiler takes any file, so the calls without a callback do not fail here.
    | runtime => exact absurd (isOpen.symm.trans (addScript_error raised)) Bool.false_ne_true
    | polyfill path => exact absurd (isOpen.symm.trans (addScript_error raised)) Bool.false_ne_true

/-- A style compiler whose directory is refused stays behind a script, with its file. -/
theorem shortcut_raises_sample :
    let builder : Builder := { sample with compilers := [.create .js false], minify := true }
    let callback := Callback.ofSettings [.file "main.css", .directory "styles" none]
    let call := builder.invoke (.dialect .css callback)
    call.1 = .error (.validation (.openDirectory ⟨"styles"⟩)) ∧
      builder.invoke (.dialect .css callback.quiet) = (.ok (), call.2) ∧
      call.2.compilers.map Compiler.patterns = [[], ["main.css"]] ∧
      call.2.minifierNames = ["js-minify"] := by
  intro builder callback call
  have failed : call.1 = .error (.validation (.openDirectory ⟨"styles"⟩)) := by rfl
  rcases shortcut_raises (Prod.ext failed rfl : call = (_, call.2)) with
    ⟨built, -⟩ | ⟨-, dialect, other, same, left, -, -, -, quiet, minifier, -⟩
  · cases built
  · cases same
    exact ⟨failed, quiet, by rfl, minifier⟩

/-- The style compiler that failed decides how the scripts behind it are minified. -/
theorem shortcut_raises_attached :
    let builder : Builder := { sample with compilers := [], minify := true }
    let failing := Shortcut.dialect .css (.ofSettings [.directory "styles" none])
    let script := Shortcut.dialect .js (.ofSettings [.file "main.js"])
    let after := (builder.invoke failing).2
    (builder.invoke failing).1 = .error (.validation (.openDirectory ⟨"styles"⟩)) ∧
      after.compilers.map Compiler.dialect = [.css] ∧
      after ≠ builder ∧
      (builder.invoke script).2.minifierNames = ["js-minify"] ∧
      (after.invoke script).2.minifierNames = ["css-minify"] := by
  intro builder failing script after
  have added : after.compilers.map Compiler.dialect = [.css] := by rfl
  refine ⟨by rfl, added, ?_, by rfl, by rfl⟩
  intro same
  rw [same] at added
  cases added

end Builder

end AssetBundler

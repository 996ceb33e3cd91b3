import AssetBundler.Proofs.Builder.Causes
import AssetBundler.Proofs.Compiler.Frozen

/-!
The life of a builder. It is open to calls until a build passes its checks, and from then on every
call is refused and leaves everything as it is.
-/

namespace AssetBundler

namespace Builder

/-- A call on a builder, or on the compiler at a place. -/
inductive Call where
  | add (dialect : Dialect) (settings : List Setting)
  | addRuntime
  | addPolyfill (path : String)
  | configure (index : Nat) (setting : Setting)
  | setSourceMaps (enabled : Bool)
  | setMinify (enabled : Bool) (options : Options)
  | setGzip (enabled : Bool)
  | build (output : String)

/-- A setting that is refused leaves the builder as it is. -/
def keep (builder : Builder) (result : Except Failure Builder) : Except Failure Unit × Builder :=
  match result with
  | .ok changed => (.ok (), changed)
  | .error failure => (.error failure, builder)

/-- The calls that configure a compiler have to be offered by it. -/
def offers (builder : Builder) : Call → Bool
  | .configure index setting =>
      builder.compilers[index]?.any fun compiler => compiler.offers setting
  | _ => true

namespace Call

def settings : Call → List Setting
  | .add _ settings => settings
  | .configure _ setting => [setting]
  | _ => []

/-- No setting of the call freezes a compiler. Only a build does. -/
def Configures (call : Call) : Prop := ∀ setting ∈ call.settings, setting.isFreeze = false

instance (call : Call) : Decidable call.Configures :=
  inferInstanceAs (Decidable (∀ setting ∈ call.settings, setting.isFreeze = false))

/-- What a call is told that comes too late. -/
def refusal : Call → Failure
  | .configure _ _ => .compilerFrozen
  | _ => .builderBuilt

theorem label_refusal (call : Call) : call.refusal.label = "BuilderStateError" := by
  cases call <;> rfl

end Call

end Builder

/-- A builder and its surroundings between two calls. -/
structure Session where
  builder : Builder
  workspace : Workspace

namespace Session

open Builder

def configured (session : Session) (result : Except Failure Unit × Builder) :
    Except Failure (Option BuildResult) × Session :=
  (result.1.map fun _ => none, { session with builder := result.2 })

/-- Only a build answers with a result, and only a build has to do with the surroundings. -/
def perform (session : Session) : Call → Except Failure (Option BuildResult) × Session
  | .add dialect settings => session.configured (session.builder.addConfigured dialect settings)
  | .addRuntime => session.configured session.builder.addRuntime
  | .addPolyfill path => session.configured (session.builder.addPolyfill path)
  | .configure index setting => session.configured (session.builder.configure index setting)
  | .setSourceMaps enabled =>
      session.configured (session.builder.keep (session.builder.setSourceMaps enabled))
  | .setMinify enabled options =>
      session.configured (session.builder.keep (session.builder.setMinify enabled options))
  | .setGzip enabled => session.configured (session.builder.keep (session.builder.setGzip enabled))
  | .build output =>
      let (result, builder, workspace) := session.builder.build output session.workspace
      (result.map some, ⟨builder, workspace⟩)

/-- Calls are made one after another, whatever their answers are. -/
def run (session : Session) : List Call → List (Except Failure (Option BuildResult)) × Session
  | [] => ([], session)
  | call :: rest =>
      let (answer, next) := session.perform call
      let (answers, last) := next.run rest
      (answer :: answers, last)

theorem run_cons (session : Session) (call : Call) (rest : List Call) :
    session.run (call :: rest) =
      ((session.perform call).1 :: ((session.perform call).2.run rest).1,
        ((session.perform call).2.run rest).2) := rfl

theorem run_append (session : Session) (calls others : List Call) :
    session.run (calls ++ others) =
      ((session.run calls).1 ++ ((session.run calls).2.run others).1,
        ((session.run calls).2.run others).2) := by
  induction calls generalizing session with
  | nil => rfl
  | cons call rest inductionHypothesis =>
      simp only [List.cons_append, run_cons, inductionHypothesis]

end Session

namespace Builder

/-- The compilers of a builder are frozen exactly when it was built. -/
def IsConsistent (builder : Builder) : Prop :=
  ∀ compiler ∈ builder.compilers, compiler.frozen = builder.built

/-- A builder that was built, with all its compilers. -/
def IsSealed (builder : Builder) : Prop :=
  builder.built = true ∧ ∀ compiler ∈ builder.compilers, compiler.frozen = true

theorem sealed_freeze (builder : Builder) : builder.freeze.IsSealed := by
  refine ⟨rfl, ?_⟩
  intro compiler member
  obtain ⟨before, -, same⟩ := List.mem_map.mp member
  exact same ▸ rfl

variable {builder : Builder}

section Configure

variable {index : Nat} {setting : Setting} {compiler : Compiler}

theorem configure_absent (absent : builder.compilers[index]? = none) :
    builder.configure index setting = (.ok (), builder) := by
  rw [configure, absent]

theorem configure_refused (found : builder.compilers[index]? = some compiler) {failure : Failure}
    (refused : compiler.configure setting = .error failure) :
    builder.configure index setting = (.error failure, builder) := by
  simp only [configure, found, refused]

theorem configure_taken (found : builder.compilers[index]? = some compiler) {changed : Compiler}
    (taken : compiler.configure setting = .ok changed) :
    builder.configure index setting =
      (.ok (), { builder with compilers := builder.compilers.set index changed }) := by
  simp only [configure, found, taken]

end Configure

section Consistent

theorem consistent_configure (consistent : builder.IsConsistent) (index : Nat)
    {setting : Setting} (keeps : setting.isFreeze = false) :
    (builder.configure index setting).2.IsConsistent ∧
      (builder.configure index setting).2.built = builder.built := by
  cases found : builder.compilers[index]? with
  | none =>
      rw [configure_absent found]
      exact ⟨consistent, rfl⟩
  | some compiler =>
      cases taken : compiler.configure setting with
      | error failure =>
          rw [configure_refused found taken]
          exact ⟨consistent, rfl⟩
      | ok changed =>
          rw [configure_taken found taken]
          refine ⟨?_, rfl⟩
          obtain ⟨wasOpen, isOpen⟩ := Compiler.frozen_configure taken keeps
          have same := consistent compiler (List.mem_of_getElem? found)
          intro other member
          rcases List.mem_or_eq_of_mem_set member with old | new
          · exact consistent other old
          · rw [new, isOpen, ← wasOpen]
            exact same

theorem consistent_configureAll (consistent : builder.IsConsistent) (index : Nat)
    {settings : List Setting} (keeps : ∀ setting ∈ settings, setting.isFreeze = false) :
    (builder.configureAll index settings).2.IsConsistent := by
  induction settings generalizing builder with
  | nil => exact consistent
  | cons setting rest inductionHypothesis =>
      have first := (consistent_configure consistent index (keeps setting List.mem_cons_self)).1
      rw [configureAll]
      rcases configured : builder.configure index setting with ⟨result, changed⟩
      rw [configured] at first
      cases result with
      | error failure => exact first
      | ok =>
          exact inductionHypothesis first fun next member =>
            keeps next (List.mem_cons_of_mem setting member)

theorem checkMutable_eq_ok (passed : builder.checkMutable = .ok ()) : builder.built = false := by
  unfold checkMutable at passed
  split at passed
  · cases passed
  · simpa using ‹¬builder.built = true›

theorem consistent_addConfigured (consistent : builder.IsConsistent) (dialect : Dialect)
    {settings : List Setting} (keeps : ∀ setting ∈ settings, setting.isFreeze = false) :
    (builder.addConfigured dialect settings).2.IsConsistent := by
  rw [addConfigured]
  cases result : builder.addCompiler dialect with
  | error failure => exact consistent
  | ok added =>
      obtain ⟨⟨⟩, passed, same⟩ := Outcome.bind_eq_ok.mp result
      cases same
      refine consistent_configureAll ?_ _ keeps
      intro compiler member
      rcases List.mem_append.mp member with old | new
      · exact consistent compiler old
      · rw [List.mem_singleton.mp new]
        exact (checkMutable_eq_ok passed).symm

/-- A switch has nothing to do with the compilers. -/
theorem consistent_keep (consistent : builder.IsConsistent) (change : Builder → Builder)
    (compilers : (change builder).compilers = builder.compilers)
    (built : (change builder).built = builder.built) :
    (builder.keep (builder.checkMutable >>= fun _ => .ok (change builder))).2.IsConsistent := by
  cases builder.checkMutable with
  | error failure => exact consistent
  | ok =>
      intro compiler member
      rw [show (builder.keep _).2 = change builder from rfl] at member ⊢
      rw [built]
      exact consistent compiler (compilers ▸ member)

theorem consistent_build (consistent : builder.IsConsistent) (output : String)
    (workspace : Workspace) : (builder.build output workspace).2.1.IsConsistent := by
  cases checked : builder.checkBuild output with
  | error failure =>
      rw [build_refused checked]
      exact consistent
  | ok place =>
      obtain ⟨events, ran⟩ := build_accepted checked workspace
      rw [ran]
      exact (sealed_freeze builder).2

theorem consistent_perform {session : Session} (consistent : session.builder.IsConsistent)
    {call : Call} (configures : call.Configures) :
    (session.perform call).2.builder.IsConsistent := by
  have single (path : String) : ∀ setting ∈ [Setting.file path], setting.isFreeze = false := by
    intro setting member
    rw [List.mem_singleton.mp member]
    rfl
  cases call with
  | add dialect settings => exact consistent_addConfigured consistent dialect configures
  | addRuntime => exact consistent_addConfigured consistent .js (single session.builder.runtime)
  | addPolyfill path => exact consistent_addConfigured consistent .js (single path)
  | configure index setting =>
      exact (consistent_configure consistent index (configures setting List.mem_cons_self)).1
  | setSourceMaps enabled =>
      exact consistent_keep consistent (fun builder => { builder with sourceMaps := enabled }) rfl
        rfl
  | setMinify enabled options =>
      exact consistent_keep consistent
        (fun builder => { builder with minify := enabled, minifyOptions := options }) rfl rfl
  | setGzip enabled =>
      exact consistent_keep consistent (fun builder => { builder with gzip := enabled }) rfl rfl
  | build output => exact consistent_build consistent output session.workspace

/-- A run of calls keeps the builder and its compilers in step. -/
theorem consistent_run {session : Session} (consistent : session.builder.IsConsistent)
    {calls : List Call} (configure : ∀ call ∈ calls, call.Configures) :
    (session.run calls).2.builder.IsConsistent := by
  induction calls generalizing session with
  | nil => exact consistent
  | cons call rest inductionHypothesis =>
      exact inductionHypothesis (consistent_perform consistent (configure call List.mem_cons_self))
        fun next member => configure next (List.mem_cons_of_mem call member)

end Consistent

section Sealed

variable {session : Session} (isSealed : session.builder.IsSealed)
include isSealed

theorem checkMutable_sealed : session.builder.checkMutable = .error .builderBuilt := by
  rw [checkMutable, if_pos isSealed.1]

/-- A setting leaves a frozen compiler as it is, and a compiler that offers it refuses it. -/
theorem configure_sealed (index : Nat) (setting : Setting) :
    (session.builder.configure index setting).2 = session.builder ∧
      (session.builder.offers (.configure index setting) = true →
        (session.builder.configure index setting).1 = .error .compilerFrozen) := by
  cases found : session.builder.compilers[index]? with
  | none =>
      rw [configure_absent found]
      refine ⟨rfl, fun offered => ?_⟩
      rw [offers, found] at offered
      cases offered
  | some compiler =>
      have frozen := isSealed.2 compiler (List.mem_of_getElem? found)
      constructor
      · cases taken : compiler.configure setting with
        | error failure => rw [configure_refused found taken]
        | ok changed =>
            obtain ⟨inside, same⟩ := List.getElem?_eq_some_iff.mp found
            rw [configure_taken found taken, Compiler.configure_frozen_ok frozen taken, ← same,
              List.set_getElem_self]
      · intro offered
        rw [offers, found] at offered
        rw [configure_refused found (Compiler.configure_frozen frozen offered)]

theorem addConfigured_sealed (dialect : Dialect) (settings : List Setting) :
    session.builder.addConfigured dialect settings = (.error .builderBuilt, session.builder) := by
  have refused : session.builder.addCompiler dialect = .error .builderBuilt := by
    rw [addCompiler, checkMutable_sealed isSealed]
    rfl
  rw [addConfigured, refused]

/-- A call on a sealed builder changes nothing, and it is refused. -/
theorem perform_sealed (call : Call) :
    (session.perform call).2 = session ∧
      (session.builder.offers call = true → (session.perform call).1 = .error call.refusal) := by
  have refused := checkMutable_sealed isSealed
  cases call with
  | add dialect settings =>
      rw [Session.perform, addConfigured_sealed isSealed]
      exact ⟨rfl, fun _ => rfl⟩
  | addRuntime =>
      rw [Session.perform, addRuntime, addConfigured_sealed isSealed]
      exact ⟨rfl, fun _ => rfl⟩
  | addPolyfill path =>
      rw [Session.perform, addPolyfill, addConfigured_sealed isSealed]
      exact ⟨rfl, fun _ => rfl⟩
  | configure index setting =>
      obtain ⟨unchanged, answer⟩ := configure_sealed isSealed index setting
      rw [Session.perform, Session.configured, unchanged]
      refine ⟨rfl, fun offered => ?_⟩
      rw [answer offered]
      rfl
  | setSourceMaps enabled =>
      rw [Session.perform, setSourceMaps, refused]
      exact ⟨rfl, fun _ => rfl⟩
  | setMinify enabled options =>
      rw [Session.perform, setMinify, refused]
      exact ⟨rfl, fun _ => rfl⟩
  | setGzip enabled =>
      rw [Session.perform, setGzip, refused]
      exact ⟨rfl, fun _ => rfl⟩
  | build output =>
      have checked : session.builder.checkBuild output = .error .builderBuilt := by
        rw [checkBuild, refused]
        rfl
      rw [Session.perform, build_refused checked]
      exact ⟨rfl, fun _ => rfl⟩

theorem run_sealed (calls : List Call) : (session.run calls).2 = session := by
  induction calls with
  | nil => rfl
  | cons call rest inductionHypothesis =>
      rw [Session.run_cons, (perform_sealed isSealed call).1]
      exact inductionHypothesis

end Sealed

/-- A build is refused too early without a compiler, or without a file to build to. -/
def IsPremature (failure : Failure) : Prop :=
  failure = .noCompilers ∨ ∃ output, failure = .invalidOutput output

/-- No stage of a build fails as one that comes too early. -/
theorem assembled_not_premature (builder : Builder) (folder name : String) (tree : Tree)
    (directory : Location) {failure : Failure}
    (failed : (builder.assembled folder name tree directory).1 = .error failure) :
    ¬ IsPremature failure := by
  cases demanded : builder.registry.demand builder.neededCapabilities with
  | ok =>
      have stages : Failure.CoversStages builder.registry fun failure => ¬ IsPremature failure := by
        constructor <;> intros <;> rintro (same | ⟨output, same⟩) <;> cases same
      exact failsOnly_assembled stages (Registry.demand_eq_ok_iff.mp demanded) folder name tree
        directory failure failed
  | error cause =>
      obtain ⟨asked, -, rfl⟩ := Registry.demand_eq_error_iff.mp demanded
      have compiledAs : builder.compiled tree directory = .error (.missingCapability ⟨asked⟩) := by
        rw [compiled, demanded]
        rfl
      simp only [assembled, compiledAs] at failed
      cases failed
      rintro (same | ⟨output, same⟩) <;> cases same

/-- A build that comes too early is refused by its checks, and the builder is still open. -/
theorem checkBuild_of_premature {output : String} {workspace : Workspace} {failure : Failure}
    (failed : (builder.build output workspace).1 = .error failure)
    (premature : IsPremature failure) :
    builder.checkBuild output = .error failure ∧ builder.built = false := by
  cases checked : builder.checkBuild output with
  | ok place =>
      obtain ⟨events, ran⟩ := build_accepted checked workspace
      rw [ran] at failed
      exact absurd premature (assembled_not_premature builder _ _ _ _ failed)
  | error cause =>
      rw [build_refused checked] at failed
      cases failed
      refine ⟨rfl, ?_⟩
      cases built : builder.built with
      | false => rfl
      | true =>
          rw [checkBuild, checkMutable, if_pos built] at checked
          cases checked
          rcases premature with same | ⟨output, same⟩ <;> cases same

/-- A build that has a compiler and a file to build to leaves the builder sealed, whatever it gives
and whether it is the first one or not. -/
theorem sealed_build (consistent : builder.IsConsistent) (filled : builder.compilers ≠ [])
    {output : String} {place : String × String} (named : Output.split output = .ok place)
    (workspace : Workspace) : (builder.build output workspace).2.1.IsSealed := by
  cases built : builder.built with
  | false =>
      obtain ⟨events, ran⟩ := build_accepted (checkBuild_eq_ok.mpr ⟨built, filled, named⟩) workspace
      rw [ran]
      exact sealed_freeze builder
  | true =>
      have late : builder.checkBuild output = .error .builderBuilt := by
        rw [checkBuild, checkMutable, if_pos built]
        rfl
      rw [build_refused late]
      exact ⟨built, fun compiler member => (consistent compiler member).trans built⟩

/-- A build that comes too early for its own sake leaves everything as it was and open, so that the
calls after it are answered as if it had not been made. A build that gets further seals the builder
and its compilers for good: every later call is refused, and none changes anything. -/
theorem lifecycle {builder : Builder} (isNew : builder.compilers = [])
    (workspace : Workspace) {earlier : List Call} (configure : ∀ call ∈ earlier, call.Configures)
    (output : String) (later : List Call) :
    let start : Session := ⟨builder, workspace⟩
    let reached := (start.run earlier).2
    let built := reached.perform (.build output)
    (∀ failure, built.1 = .error failure → IsPremature failure →
        built.2 = reached ∧
        reached.builder.built = false ∧
        (∀ compiler ∈ reached.builder.compilers, compiler.frozen = false) ∧
        (start.run (earlier ++ .build output :: later)).1 =
          (start.run earlier).1 ++ .error failure :: (reached.run later).1 ∧
        (start.run (earlier ++ later)).1 = (start.run earlier).1 ++ (reached.run later).1 ∧
        (start.run (earlier ++ .build output :: later)).2 = (start.run (earlier ++ later)).2) ∧
      (reached.builder.compilers ≠ [] → (∃ place, Output.split output = .ok place) →
        (built.2.run later).2 = built.2 ∧
        ∀ call, ((built.2.run later).2.perform call).2 = built.2 ∧
          (built.2.builder.offers call = true →
            ((built.2.run later).2.perform call).1 = .error call.refusal ∧
              call.refusal.label = "BuilderStateError")) := by
  intro start reached built
  have consistent : reached.builder.IsConsistent := by
    apply consistent_run _ configure
    intro compiler member
    rw [isNew] at member
    cases member
  constructor
  · intro failure failed premature
    have refused : (reached.builder.build output reached.workspace).1 = .error failure := by
      change (reached.builder.build output reached.workspace).1.map some = .error failure at failed
      cases result : (reached.builder.build output reached.workspace).1 with
      | ok given =>
          rw [result] at failed
          cases failed
      | error cause =>
          rw [result] at failed
          cases failed
          rfl
    obtain ⟨checked, isOpen⟩ := checkBuild_of_premature refused premature
    have performed : reached.perform (.build output) = (.error failure, reached) := by
      rw [Session.perform, build_refused checked]
      rfl
    refine ⟨congrArg Prod.snd performed, isOpen, ?_, ?_, ?_, ?_⟩
    · exact fun compiler member => (consistent compiler member).trans isOpen
    · rw [Session.run_append, Session.run_cons, performed]
    · rw [Session.run_append]
    · rw [Session.run_append, Session.run_append, Session.run_cons, performed]
  · rintro filled ⟨place, named⟩
    have isSealed : built.2.builder.IsSealed := sealed_build consistent filled named _
    have unchanged := run_sealed isSealed later
    rw [unchanged]
    refine ⟨rfl, fun call => ?_⟩
    obtain ⟨kept, refused⟩ := perform_sealed isSealed call
    exact ⟨kept, fun offered => ⟨refused offered, call.label_refusal⟩⟩

/-- A second build is refused. The first one fails, as its file is missing. -/
theorem lifecycle_sample :
    let start : Session := ⟨{ sample with compilers := [] }, sampleWorkspace⟩
    let earlier := [Call.setGzip true, .add .css [.file "absent.css"]]
    let reached := (start.run earlier).2
    start.builder.compilers = [] ∧
      (∀ call ∈ earlier, call.Configures) ∧
      (reached.perform (.build "out/")).1 = .error (.invalidOutput "out/") ∧
      (reached.perform (.build "out/")).2 = reached ∧
      (reached.perform (.build "out/all.css")).1 =
        .error (.selection (.notFound "absent.css")) ∧
      ((reached.perform (.build "out/all.css")).2.perform (.build "out/all.css")).1 =
        .error .builderBuilt ∧
      ((reached.perform (.build "out/all.css")).2.perform
          (.configure 0 (.prefixing true []))).1 = .error .compilerFrozen := by
  intro start earlier reached
  have configure : ∀ call ∈ earlier, call.Configures := by decide
  have early : (reached.perform (.build "out/")).1 = .error (.invalidOutput "out/") := by
    decide +kernel
  have filled : reached.builder.compilers ≠ [] := List.cons_ne_nil _ _
  have described := @lifecycle start.builder rfl sampleWorkspace earlier configure
  obtain ⟨-, refused⟩ :=
    (described "out/all.css" []).2 filled ⟨("out", "all.css"), by decide +kernel⟩
  refine ⟨rfl, configure, early, ?_, by decide +kernel, ?_, ?_⟩
  · exact ((described "out/" []).1 _ early (Or.inr ⟨_, rfl⟩)).1
  · exact ((refused (.build "out/all.css")).2 rfl).1
  · exact ((refused (.configure 0 (.prefixing true []))).2 (by decide +kernel)).1

end Builder

end AssetBundler

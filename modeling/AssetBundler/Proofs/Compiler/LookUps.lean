import AssetBundler.Proofs.Capability.Demand

/-!
The names that a compiler looks up when it is prepared. They are its required names, each once and
in their order, whatever finds the capabilities.
-/

namespace AssetBundler

namespace Compiler

section Effects

variable {m : Type → Type} [Monad m] [LawfulMonad m]

/-- A look-up of which only the effect counts. -/
def lookUpOnly (find : String → m Capability) (name : String) : m Unit :=
  (fun _ => ()) <$> find name

theorem findTransform_effect (find : String → m Capability) (compiler : Compiler) :
    (fun _ => ()) <$> compiler.findTransform find =
      forM compiler.dialect.capability?.toList (lookUpOnly find) := by
  cases named : compiler.dialect.capability? <;> simp [findTransform, named, lookUpOnly]

theorem findPost_effect (find : String → m Capability) (compiler : Compiler) :
    (fun _ => ()) <$> compiler.findPost find =
      forM compiler.postCapabilities (lookUpOnly find) := by
  cases family : compiler.kind with
  | script =>
      by_cases bare : compiler.scope = "" <;>
        simp [findPost, postCapabilities, family, bare, lookUpOnly]
  | style =>
      cases prefixed : compiler.prefixing <;>
        simp [findPost, postCapabilities, family, prefixed, lookUpOnly]
  | plain => simp [findPost, postCapabilities, family]

/-- Preparing a compiler has the effects of looking up its required names and no others. -/
theorem prepareWith_effect (find : String → m Capability) (compiler : Compiler) :
    (fun _ => ()) <$> compiler.prepareWith find =
      forM compiler.requiredCapabilities (lookUpOnly find) := by
  rw [requiredCapabilities, List.forM_append, ← findTransform_effect, ← findPost_effect]
  simp [prepareWith]

/-- Two ways of finding that agree on the required names prepare the same compiler. -/
theorem prepareWith_congr {find other : String → m Capability} {compiler : Compiler}
    (agree : ∀ name ∈ compiler.requiredCapabilities, find name = other name) :
    compiler.prepareWith find = compiler.prepareWith other := by
  have transform : compiler.findTransform find = compiler.findTransform other := by
    cases named : compiler.dialect.capability? with
    | none => simp [findTransform, named]
    | some name => simp [findTransform, named, agree name (by simp [requiredCapabilities, named])]
  have post : compiler.findPost find = compiler.findPost other := by
    cases family : compiler.kind with
    | script =>
        by_cases bare : compiler.scope = ""
        · simp [findPost, family, bare]
        · simp [findPost, family, bare,
            agree "commonjs" (by simp [requiredCapabilities, postCapabilities, family, bare])]
    | style =>
        cases prefixed : compiler.prefixing with
        | false => simp [findPost, family, prefixed]
        | true =>
            simp [findPost, family, prefixed, agree "autoprefixer"
              (by simp [requiredCapabilities, postCapabilities, family, prefixed])]
    | plain => simp [findPost, family]
  simp only [prepareWith, transform, post]

end Effects

/-- A look-up that writes down the name that it is asked for. -/
def recording (find : String → Capability) (name : String) : StateM (List String) Capability := do
  modify (· ++ [name])
  return find name

theorem recording_forM (find : String → Capability) (names recorded : List String) :
    StateT.run (m := Id) (forM names (lookUpOnly (recording find))) recorded =
      ((), recorded ++ names) := by
  induction names generalizing recorded with
  | nil =>
      rw [List.append_nil]
      rfl
  | cons name rest inductionHypothesis =>
      have later := inductionHypothesis (recorded ++ [name])
      rw [List.append_assoc] at later
      simpa [lookUpOnly, recording] using later

/-- The names that are written down are the required ones. -/
theorem recorded_prepareWith (find : String → Capability) (compiler : Compiler) :
    ((compiler.prepareWith (recording find)).run []).2 = compiler.requiredCapabilities := by
  have effect := congrArg (fun action => (StateT.run action []).2)
    (prepareWith_effect (recording find) compiler)
  simp only [recording_forM, List.nil_append] at effect
  exact effect

theorem minifier_congr {registry other : Registry Capability} {compiler : Compiler}
    (agree : ∀ name ∈ compiler.kind.minifier?, lookUp registry name = lookUp other name) :
    compiler.minifier registry = compiler.minifier other := by
  unfold minifier
  cases named : compiler.kind.minifier? with
  | none => rfl
  | some name =>
      dsimp only
      rw [agree name named]

variable {registry : Registry Capability}

theorem demand_eq_forM (names : List String) :
    forM names (lookUpOnly (lookUp registry)) = registry.demand names := by
  induction names with
  | nil => rfl
  | cons name rest inductionHypothesis =>
      rw [List.forM_cons, lookUpOnly, inductionHypothesis, Registry.demand_cons]
      by_cases registered : registry.has name
      · obtain ⟨capability, found⟩ := Registry.lookUp_registered registered
        rw [found, if_pos registered]
        rfl
      · rw [Registry.lookUp_missing (by simpa using registered), if_neg registered]
        rfl

/-- A compiler is prepared when all its required names are registered. -/
theorem prepare_effect (compiler : Compiler) :
    (fun _ => ()) <$> compiler.prepare registry =
      registry.demand compiler.requiredCapabilities := by
  rw [prepare, prepareWith_effect, demand_eq_forM]

theorem exists_prepare {compiler : Compiler}
    (registered : ∀ name ∈ compiler.requiredCapabilities, registry.has name = true) :
    ∃ prepared, compiler.prepare registry = .ok prepared := by
  have effect : (fun _ => ()) <$> compiler.prepare registry =
      registry.demand compiler.requiredCapabilities := prepare_effect compiler
  rw [Registry.demand_eq_ok_iff.mpr registered] at effect
  cases ready : compiler.prepare registry with
  | ok prepared => exact ⟨prepared, rfl⟩
  | error failure =>
      rw [ready] at effect
      cases effect

end Compiler

end AssetBundler

import AssetBundler.Compiler.Stream

/-!
What a registry lacks. Of several names the first one that is not registered decides.
-/

namespace AssetBundler.Registry

/-- The first name that nothing is registered under. -/
def firstMissing? (registry : Registry Capability) (names : List String) : Option String :=
  List.find? (fun name => !registry.has name) names

/-- All names have to be registered. -/
def demand (registry : Registry Capability) (names : List String) : Except Failure Unit :=
  match registry.firstMissing? names with
  | some name => .error (.missingCapability ⟨name⟩)
  | none => .ok ()

variable {registry : Registry Capability} {names : List String}

theorem demand_cons (name : String) (rest : List String) :
    registry.demand (name :: rest) =
      if registry.has name then registry.demand rest
      else .error (.missingCapability ⟨name⟩) := by
  by_cases registered : registry.has name <;> simp [demand, firstMissing?, registered]

theorem demand_append (names others : List String) :
    registry.demand (names ++ others) = registry.demand names >>= fun _ =>
      registry.demand others := by
  induction names with
  | nil => rfl
  | cons name rest inductionHypothesis =>
      rw [List.cons_append, demand_cons, demand_cons, inductionHypothesis]
      split <;> rfl

theorem demand_eq_ok_iff :
    registry.demand names = .ok () ↔ ∀ name ∈ names, registry.has name = true := by
  cases missing : registry.firstMissing? names with
  | none => simpa [demand, missing] using List.find?_eq_none.mp missing
  | some name =>
      have unregistered := List.find?_some missing
      simp only [demand, missing, reduceCtorEq, false_iff]
      intro registered
      simp [registered name (List.mem_of_find?_eq_some missing)] at unregistered

theorem demand_eq_error_iff {failure : Failure} :
    registry.demand names = .error failure ↔
      ∃ name, registry.firstMissing? names = some name ∧ failure = .missingCapability ⟨name⟩ := by
  cases missing : registry.firstMissing? names with
  | none => simp [demand, missing]
  | some name => simp [demand, missing, eq_comm]

theorem lookUp_registered {name : String} (registered : registry.has name = true) :
    ∃ capability, Compiler.lookUp registry name = .ok capability := by
  unfold Registry.has Assoc.contains at registered
  obtain ⟨capability, found⟩ := Option.isSome_iff_exists.mp registered
  exact ⟨capability, by simp [Compiler.lookUp, Registry.get, found]⟩

theorem lookUp_missing {name : String} (missing : registry.has name = false) :
    Compiler.lookUp registry name = .error (.missingCapability ⟨name⟩) := by
  unfold Registry.has Assoc.contains at missing
  have absent : Assoc.find? registry name = none := by simpa using missing
  simp [Compiler.lookUp, Registry.get, absent]

end AssetBundler.Registry

import AssetBundler.Failure
import Mathlib.Data.List.Forall2

/-!
Outcomes of steps that may fail, taken apart into the outcomes of their parts.
-/

namespace AssetBundler.Outcome

variable {Cause Value Result Item : Type}

theorem bind_eq_ok {outcome : Except Cause Value} {next : Value → Except Cause Result}
    {result : Result} :
    (outcome >>= next) = .ok result ↔ ∃ value, outcome = .ok value ∧ next value = .ok result := by
  cases outcome with
  | ok value =>
      constructor
      · intro passed
        exact ⟨value, rfl, passed⟩
      · rintro ⟨value, same, passed⟩
        cases same
        exact passed
  | error cause =>
      constructor
      · intro passed
        cases passed
      · rintro ⟨value, same, passed⟩
        cases same

/-- A list is handled when each of its elements is. -/
theorem mapM_eq_ok {step : Item → Except Cause Value} {items : List Item} {values : List Value} :
    items.mapM step = .ok values ↔
      List.Forall₂ (fun item value => step item = .ok value) items values := by
  induction items generalizing values with
  | nil =>
      cases values <;> simp [pure, Except.pure]
  | cons item rest inductionHypothesis =>
      simp only [List.mapM_cons, bind_eq_ok, inductionHypothesis, List.forall₂_cons_left_iff, pure,
        Except.pure, Except.ok.injEq]
      constructor
      · rintro ⟨value, first, values, others, rfl⟩
        exact ⟨value, values, first, others, rfl⟩
      · rintro ⟨value, values, first, others, rfl⟩
        exact ⟨value, first, values, others, rfl⟩

theorem exists_mapM {step : Item → Except Cause Value} {items : List Item}
    (each : ∀ item ∈ items, ∃ value, step item = .ok value) :
    ∃ values, items.mapM step = .ok values := by
  induction items with
  | nil => exact ⟨[], rfl⟩
  | cons item rest inductionHypothesis =>
      obtain ⟨value, first⟩ := each item List.mem_cons_self
      obtain ⟨values, others⟩ := inductionHypothesis fun next member =>
        each next (List.mem_cons_of_mem item member)
      refine ⟨value :: values, mapM_eq_ok.mpr ?_⟩
      exact List.Forall₂.cons first (mapM_eq_ok.mp others)

/-- Each element of a list that was handled was handled itself. -/
theorem exists_of_mapM {step : Item → Except Cause Value} {items : List Item} {values : List Value}
    (passed : items.mapM step = .ok values) : ∀ item ∈ items, ∃ value, step item = .ok value := by
  have each := mapM_eq_ok.mp passed
  clear passed
  induction each with
  | nil => simp
  | cons first _ inductionHypothesis =>
      exact List.forall_mem_cons.mpr ⟨⟨_, first⟩, inductionHypothesis⟩

/-- A list fails with the first of its elements that does. -/
theorem mapM_eq_error {step : Item → Except Cause Value} {items : List Item} {cause : Cause}
    (failed : items.mapM step = .error cause) :
    ∃ before item after, items = before ++ item :: after ∧
      (∀ earlier ∈ before, ∃ value, step earlier = .ok value) ∧ step item = .error cause := by
  induction items with
  | nil => cases failed
  | cons first rest inductionHypothesis =>
      rw [List.mapM_cons] at failed
      cases outcome : step first with
      | error reason =>
          rw [outcome] at failed
          cases failed
          exact ⟨[], first, rest, rfl, by simp, outcome⟩
      | ok value =>
          cases others : rest.mapM step with
          | ok values =>
              rw [outcome, others] at failed
              cases failed
          | error reason =>
              rw [outcome, others] at failed
              cases failed
              obtain ⟨before, item, after, rfl, passed, failed⟩ := inductionHypothesis others
              refine ⟨first :: before, item, after, rfl, ?_, failed⟩
              exact List.forall_mem_cons.mpr ⟨⟨value, outcome⟩, passed⟩

theorem mapM_congr {m : Type → Type} [Monad m] [LawfulMonad m] {step other : Item → m Value}
    {items : List Item} (same : ∀ item ∈ items, step item = other item) :
    items.mapM step = items.mapM other := by
  induction items with
  | nil => rfl
  | cons item rest inductionHypothesis =>
      rw [List.mapM_cons, List.mapM_cons, same item List.mem_cons_self,
        inductionHypothesis fun next member => same next (List.mem_cons_of_mem item member)]

/-- The cause of an outcome that failed. -/
def failure? : Except Cause Value → Option Cause
  | .ok _ => none
  | .error cause => some cause

/-- The causes of an outcome are all of one kind. -/
def FailsOnly (kind : Cause → Prop) (outcome : Except Cause Value) : Prop :=
  ∀ cause, outcome = .error cause → kind cause

namespace FailsOnly

variable {kind : Cause → Prop}

theorem ok (value : Value) : FailsOnly kind (.ok value : Except Cause Value) := by
  intro cause failed
  cases failed

theorem error {cause : Cause} (allowed : kind cause) :
    FailsOnly kind (.error cause : Except Cause Value) := by
  intro other failed
  cases failed
  exact allowed

theorem mapError {Other : Type} {convert : Other → Cause} (allowed : ∀ cause, kind (convert cause))
    (outcome : Except Other Value) : FailsOnly kind (outcome.mapError convert) := by
  cases outcome with
  | ok value => exact ok value
  | error cause => exact error (allowed cause)

theorem bind {outcome : Except Cause Value} {next : Value → Except Cause Result}
    (first : FailsOnly kind outcome) (second : ∀ value, FailsOnly kind (next value)) :
    FailsOnly kind (outcome >>= next) := by
  cases outcome with
  | ok value => exact second value
  | error cause => exact error (first cause rfl)

theorem mapM {step : Item → Except Cause Value} {items : List Item}
    (each : ∀ item ∈ items, FailsOnly kind (step item)) : FailsOnly kind (items.mapM step) := by
  induction items with
  | nil => exact ok []
  | cons item rest inductionHypothesis =>
      rw [List.mapM_cons]
      have others : FailsOnly kind (rest.mapM step) := by
        apply inductionHypothesis
        intro next member
        exact each next (List.mem_cons_of_mem item member)
      apply bind (each item List.mem_cons_self)
      intro value
      exact bind others fun values => ok (value :: values)

theorem foldlM {step : Value → Item → Except Cause Value}
    (each : ∀ value item, FailsOnly kind (step value item)) (items : List Item) :
    ∀ value, FailsOnly kind (items.foldlM step value) := by
  induction items with
  | nil => exact fun value => ok value
  | cons item rest inductionHypothesis =>
      intro value
      rw [List.foldlM_cons]
      exact bind (each value item) inductionHypothesis

theorem imp {wider : Cause → Prop} {outcome : Except Cause Value}
    (fails : FailsOnly kind outcome) (covers : ∀ cause, kind cause → wider cause) :
    FailsOnly wider outcome :=
  fun cause failed => covers cause (fails cause failed)

end FailsOnly

end AssetBundler.Outcome

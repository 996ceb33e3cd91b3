import AssetBundler.Proofs.Action.Observation
import AssetBundler.Proofs.Failure.Outcome

/-!
Actions as lists of steps. The list is fixed before the action runs, and it goes on behind a step
that fails. An action takes the steps up to the first one that fails, and it calls no capability but
those of the steps that it takes.
-/

namespace AssetBundler

/-- The name of a capability that is called, and what it is told. -/
abbrev NamedCall := String × String

def Event.call? : Event → Option NamedCall
  | .called name subject => some (name, subject)
  | _ => none

/-- An event that is no call. -/
def Event.IsSilent (event : Event) : Prop := event.call? = none

/-- The calls among events, the latest of which stands first, in the order of time. -/
def callsOf (events : List Event) : List NamedCall := events.reverse.filterMap Event.call?

theorem callsOf_append (later events : List Event) :
    callsOf (later ++ events) = callsOf events ++ callsOf later := by
  simp only [callsOf, List.reverse_append, List.filterMap_append]

/-- A step calls at most one capability, and it may fail. -/
structure Step where
  call? : Option NamedCall
  failure? : Option Failure

namespace Step

/-- The failure of the first step that fails. -/
def firstFailure? (steps : List Step) : Option Failure := steps.findSome? Step.failure?

/-- The steps up to the first one that fails. -/
def performed : List Step → List Step
  | [] => []
  | step :: rest => if step.failure?.isSome then [step] else step :: performed rest

/-- The calls of the steps that are taken. -/
def calls (steps : List Step) : List NamedCall := (performed steps).filterMap Step.call?

theorem firstFailure?_cons_eq_none {step : Step} {rest : List Step} :
    firstFailure? (step :: rest) = none ↔ step.failure? = none ∧ firstFailure? rest = none := by
  rw [firstFailure?, List.findSome?_cons]
  cases step.failure? <;> simp [firstFailure?]

theorem performed_of_passing {steps : List Step} (passing : firstFailure? steps = none) :
    performed steps = steps := by
  induction steps with
  | nil => rfl
  | cons step rest inductionHypothesis =>
      obtain ⟨first, others⟩ := firstFailure?_cons_eq_none.mp passing
      rw [performed, first, inductionHypothesis others]
      rfl

/-- No step behind one that fails is taken. -/
theorem performed_append_of_failing {steps : List Step} {failure : Failure}
    (failing : firstFailure? steps = some failure) (later : List Step) :
    performed (steps ++ later) = performed steps := by
  induction steps with
  | nil => cases failing
  | cons step rest inductionHypothesis =>
      rw [List.cons_append, performed, performed]
      cases failed : step.failure? with
      | some cause => rfl
      | none =>
          rw [firstFailure?, List.findSome?_cons, failed] at failing
          rw [inductionHypothesis failing]

theorem performed_append_of_passing {steps : List Step} (passing : firstFailure? steps = none)
    (later : List Step) : performed (steps ++ later) = steps ++ performed later := by
  induction steps with
  | nil => rfl
  | cons step rest inductionHypothesis =>
      obtain ⟨first, others⟩ := firstFailure?_cons_eq_none.mp passing
      rw [List.cons_append, performed, first, inductionHypothesis others]
      rfl

theorem firstFailure?_append (steps later : List Step) :
    firstFailure? (steps ++ later) = (firstFailure? steps).or (firstFailure? later) :=
  List.findSome?_append

end Step

namespace Action

variable {Value Result : Type}

/-- An action gives an outcome and takes the steps of a list up to the first one that fails. -/
def Takes (action : Action Value) (outcome : Tree → Location → Except Failure Value)
    (steps : Tree → Location → List Step) : Prop :=
  ∀ workspace : Workspace,
    Step.firstFailure? (steps workspace.tree workspace.directory) =
        Outcome.failure? (outcome workspace.tree workspace.directory) ∧
      ∃ events : List Event,
        callsOf events = Step.calls (steps workspace.tree workspace.directory) ∧
        run action workspace = (outcome workspace.tree workspace.directory,
          { workspace with events := events ++ workspace.events })

namespace Takes

theorem congr {action : Action Value} {outcome : Tree → Location → Except Failure Value}
    {steps other : Tree → Location → List Step} (taken : Takes action outcome steps)
    (same : ∀ tree here, steps tree here = other tree here) : Takes action outcome other := by
  intro workspace
  rw [← same]
  exact taken workspace

/-- An action without a call is a single step. -/
theorem single {action : Action Value} {outcome : Tree → Location → Except Failure Value}
    (observed : Observes Event.IsSilent action outcome) :
    Takes action outcome fun tree here => [⟨none, Outcome.failure? (outcome tree here)⟩] := by
  intro workspace
  obtain ⟨events, silent, ran⟩ := observed workspace
  have noCalls : callsOf events = [] := by
    rw [callsOf, List.filterMap_eq_nil_iff]
    exact fun event member => silent event (List.mem_reverse.mp member)
  have alone (failure? : Option Failure) : Step.calls [⟨none, failure?⟩] = [] := by
    cases failure? <;> rfl
  refine ⟨?_, events, noCalls.trans (alone _).symm, ran⟩
  simp only [Step.firstFailure?]
  cases Outcome.failure? (outcome workspace.tree workspace.directory) <;> rfl

/-- An action without a call that never fails is no step at all. -/
theorem idle {action : Action Value} {value : Value}
    (observed : Observes Event.IsSilent action fun _ _ => .ok value) :
    Takes action (fun _ _ => .ok value) fun _ _ => [] := by
  intro workspace
  obtain ⟨-, events, silent, ran⟩ := single observed workspace
  exact ⟨rfl, events, silent, ran⟩

/-- Steps that are only known when the first action passes follow its steps. The list may go on
behind a first action that fails. -/
theorem bind {action : Action Value} {next : Value → Action Result}
    {outcome : Tree → Location → Except Failure Value}
    {following : Value → Tree → Location → Except Failure Result}
    {steps : Tree → Location → List Step} {later : Value → Tree → Location → List Step}
    {behind : Tree → Location → List Step} (first : Takes action outcome steps)
    (second : ∀ value, Takes (next value) (following value) (later value))
    (known : ∀ tree here value, outcome tree here = .ok value →
      behind tree here = later value tree here) :
    Takes (action >>= next)
      (fun tree here => outcome tree here >>= fun value => following value tree here)
      fun tree here => steps tree here ++ behind tree here := by
  intro workspace
  obtain ⟨fails, events, called, ran⟩ := first workspace
  dsimp only
  rw [Step.firstFailure?_append, Step.calls]
  cases reached : outcome workspace.tree workspace.directory with
  | error failure =>
      rw [reached] at fails ran
      have failing : Step.firstFailure? (steps workspace.tree workspace.directory) = some failure :=
        fails
      refine ⟨?_, events, ?_, ?_⟩
      · rw [failing]
        rfl
      · rw [called, Step.performed_append_of_failing failing, Step.calls]
      · rw [run_bind, ran]
        rfl
  | ok value =>
      rw [reached] at fails ran
      have passing : Step.firstFailure? (steps workspace.tree workspace.directory) = none := fails
      obtain ⟨failsLater, more, calledLater, ranLater⟩ :=
        second value { workspace with events := events ++ workspace.events }
      rw [known workspace.tree workspace.directory value reached]
      refine ⟨?_, more ++ events, ?_, ?_⟩
      · rw [passing, Option.none_or]
        exact failsLater
      · rw [callsOf_append, called, calledLater, Step.performed_append_of_passing passing,
          List.filterMap_append, Step.calls, Step.performed_of_passing passing]
        rfl
      · rw [run_bind, ran, List.append_assoc]
        exact ranLater

theorem bind_single {action : Action Value} {next : Value → Action Result}
    {outcome : Tree → Location → Except Failure Value}
    {following : Value → Tree → Location → Except Failure Result} {step : Tree → Location → Step}
    {later : Value → Tree → Location → List Step} {behind : Tree → Location → List Step}
    (first : Takes action outcome fun tree here => [step tree here])
    (second : ∀ value, Takes (next value) (following value) (later value))
    (known : ∀ tree here value, outcome tree here = .ok value →
      behind tree here = later value tree here) :
    Takes (action >>= next)
      (fun tree here => outcome tree here >>= fun value => following value tree here)
      fun tree here => step tree here :: behind tree here :=
  bind first second known

/-- A value is handed on by an action that neither calls nor fails. -/
theorem echo {action : Action Value} {next : Value → Action Value}
    {outcome : Tree → Location → Except Failure Value} {steps : Tree → Location → List Step}
    (first : Takes action outcome steps)
    (second : ∀ value,
      Observes Event.IsSilent (next value) fun _ _ => .ok value) :
    Takes (action >>= next) outcome steps := by
  have both := bind first (fun value => idle (second value)) fun _ _ _ _ => rfl
  have same (tree : Tree) (here : Location) :
      (outcome tree here >>= fun value => Except.ok value) = outcome tree here :=
    bind_pure (outcome tree here)
  simpa only [same, List.append_nil] using both

/-- The steps for a list are those for its elements, in their order. -/
theorem mapM_related {Item Other : Type} {step : Other → Action Value}
    {outcome : Item → Tree → Location → Except Failure Value}
    {steps : Item → Tree → Location → List Step} {items : List Item} {others : List Other}
    (each : List.Forall₂ (fun item other => Takes (step other) (outcome item) (steps item))
      items others) :
    Takes (others.mapM step) (fun tree here => items.mapM fun item => outcome item tree here)
      fun tree here => items.flatMap fun item => steps item tree here := by
  induction each with
  | nil => exact idle (Observes.pure [])
  | cons head _ inductionHypothesis =>
      simp only [List.mapM_cons, List.flatMap_cons]
      refine bind head (fun value => (bind inductionHypothesis (fun values =>
        idle (Observes.pure (value :: values))) fun _ _ _ _ => rfl).congr fun tree here => ?_)
          fun _ _ _ _ => rfl
      rw [List.append_nil]

theorem mapM {Item : Type} {step : Item → Action Value}
    {outcome : Item → Tree → Location → Except Failure Value}
    {steps : Item → Tree → Location → List Step}
    (each : ∀ item, Takes (step item) (outcome item) (steps item)) (items : List Item) :
    Takes (items.mapM step) (fun tree here => items.mapM fun item => outcome item tree here)
      fun tree here => items.flatMap fun item => steps item tree here :=
  mapM_related (List.forall₂_same.mpr fun item _ => each item)

end Takes

end Action

end AssetBundler

import AssetBundler.Workspace
import Mathlib.Data.List.Forall2

/-!
Runs of actions. An action that observes leaves the tree and the current directory as they are, and
what it gives depends on nothing else.
-/

namespace AssetBundler.Action

variable {Value Result : Type}

@[simp] theorem run_pure (value : Value) (workspace : Workspace) :
    run (pure value) workspace = (.ok value, workspace) := rfl

@[simp] theorem run_fail (failure : Failure) (workspace : Workspace) :
    run (fail failure : Action Value) workspace = (.error failure, workspace) := rfl

@[simp] theorem run_ofExcept (result : Except Failure Value) (workspace : Workspace) :
    run (ofExcept result) workspace = (result, workspace) := by
  cases result <;> rfl

@[simp] theorem run_record (event : Event) (workspace : Workspace) :
    run (record event) workspace =
      (.ok (), { workspace with events := event :: workspace.events }) := rfl

@[simp] theorem run_get (workspace : Workspace) :
    run (get : Action Workspace) workspace = (.ok workspace, workspace) := rfl

@[simp] theorem run_set (changed workspace : Workspace) :
    run (set changed : Action PUnit) workspace = (.ok (), changed) := rfl

/-- The second action starts where the first one ended, unless the first one fails. -/
theorem run_bind (action : Action Value) (next : Value → Action Result) (workspace : Workspace) :
    run (action >>= next) workspace =
      match run action workspace with
      | (.ok value, reached) => run (next value) reached
      | (.error failure, reached) => (.error failure, reached) := by
  unfold run
  rw [ExceptT.run_bind, StateT.run_bind]
  rcases StateT.run (ExceptT.run action) workspace with ⟨result, reached⟩
  cases result <;> rfl

/-- What an action gives is decided by the tree and the current directory. It changes neither of
them, and it records events of one kind only. -/
def Observes (kind : Event → Prop) (action : Action Value)
    (outcome : Tree → Location → Except Failure Value) : Prop :=
  ∀ workspace : Workspace, ∃ events : List Event, (∀ event ∈ events, kind event) ∧
    run action workspace = (outcome workspace.tree workspace.directory,
      { workspace with events := events ++ workspace.events })

/-- Any event may be recorded. -/
def anyEvent (_ : Event) : Prop := True

namespace Observes

variable {kind : Event → Prop}

theorem weaken {action : Action Value} {outcome : Tree → Location → Except Failure Value}
    (observed : Observes kind action outcome) : Observes anyEvent action outcome := by
  intro workspace
  obtain ⟨events, _, ran⟩ := observed workspace
  exact ⟨events, fun _ _ => trivial, ran⟩

theorem ofExcept (result : Except Failure Value) :
    Observes kind (Action.ofExcept result) fun _ _ => result := by
  intro workspace
  exact ⟨[], by simp, by simp⟩

theorem pure (value : Value) : Observes kind (Pure.pure value) fun _ _ => .ok value :=
  ofExcept (.ok value)

theorem fail (failure : Failure) :
    Observes kind (Action.fail failure : Action Value) fun _ _ => .error failure :=
  ofExcept (.error failure)

theorem record {event : Event} (allowed : kind event) :
    Observes kind (Action.record event) fun _ _ => .ok () := by
  intro workspace
  exact ⟨[event], by simpa using allowed, by simp⟩

theorem recordAny (event : Event) :
    Observes anyEvent (Action.record event) fun _ _ => .ok () := record trivial

theorem bind {action : Action Value} {next : Value → Action Result}
    {outcome : Tree → Location → Except Failure Value}
    {following : Value → Tree → Location → Except Failure Result}
    (first : Observes kind action outcome)
    (second : ∀ value, Observes kind (next value) (following value)) :
    Observes kind (action >>= next) fun tree directory =>
      outcome tree directory >>= fun value => following value tree directory := by
  intro workspace
  obtain ⟨events, allowed, ran⟩ := first workspace
  cases reached : outcome workspace.tree workspace.directory with
  | error failure =>
      refine ⟨events, allowed, ?_⟩
      simp only [run_bind, ran, reached]
      rfl
  | ok value =>
      obtain ⟨later, laterAllowed, laterRan⟩ :=
        second value { workspace with events := events ++ workspace.events }
      refine ⟨later ++ events, ?_, ?_⟩
      · intro event member
        rcases List.mem_append.mp member with inLater | inEvents
        · exact laterAllowed event inLater
        · exact allowed event inEvents
      · simp only [run_bind, ran, reached, laterRan, List.append_assoc]
        rfl

/-- An action that always gives the same value leaves the outcome to the next one. -/
theorem after {action : Action Value} {next : Value → Action Result} {value : Value}
    {outcome : Tree → Location → Except Failure Result}
    (first : Observes kind action fun _ _ => .ok value)
    (second : Observes kind (next value) outcome) : Observes kind (action >>= next) outcome := by
  intro workspace
  obtain ⟨events, allowed, ran⟩ := first workspace
  obtain ⟨later, laterAllowed, laterRan⟩ :=
    second { workspace with events := events ++ workspace.events }
  refine ⟨later ++ events, ?_, ?_⟩
  · intro event member
    rcases List.mem_append.mp member with inLater | inEvents
    · exact laterAllowed event inLater
    · exact allowed event inEvents
  · simp only [run_bind, ran, laterRan, List.append_assoc]

/-- An action that always fails keeps the next one from starting. -/
theorem stop {action : Action Value} {next : Value → Action Result} {failure : Failure}
    (first : Observes kind action fun _ _ => .error failure) :
    Observes kind (action >>= next) fun _ _ => .error failure := by
  intro workspace
  obtain ⟨events, allowed, ran⟩ := first workspace
  exact ⟨events, allowed, by simp only [run_bind, ran]⟩

/-- A value is handed on by an action that only records. -/
theorem echo {action : Action Value} {next : Value → Action Value}
    {outcome : Tree → Location → Except Failure Value} (first : Observes kind action outcome)
    (second : ∀ value, Observes kind (next value) fun _ _ => .ok value) :
    Observes kind (action >>= next) outcome := by
  have both := bind first second
  have same (tree : Tree) (directory : Location) :
      (outcome tree directory >>= fun value => Except.ok value) = outcome tree directory :=
    bind_pure (outcome tree directory)
  simpa only [same] using both

/-- Two lists are handled alike when their elements are. -/
theorem mapM_related {Item Other : Type} {step : Other → Action Value}
    {outcome : Item → Tree → Location → Except Failure Value} {items : List Item}
    {others : List Other}
    (each : List.Forall₂ (fun item other => Observes kind (step other) (outcome item))
      items others) :
    Observes kind (others.mapM step) fun tree directory =>
      items.mapM fun item => outcome item tree directory := by
  induction each with
  | nil => exact pure []
  | cons head _ inductionHypothesis =>
      simp only [List.mapM_cons]
      exact bind head fun value =>
        bind inductionHypothesis fun values => pure (value :: values)

theorem mapM {Item : Type} {step : Item → Action Value}
    {outcome : Item → Tree → Location → Except Failure Value}
    (each : ∀ item, Observes kind (step item) (outcome item)) (items : List Item) :
    Observes kind (items.mapM step) fun tree directory =>
      items.mapM fun item => outcome item tree directory :=
  mapM_related (List.forall₂_same.mpr fun item _ => each item)

end Observes

/-- What an action gives and leaves is decided by the tree and the current directory. It changes
nothing but the tree and the events, and it only adds to these. -/
def Performs (action : Action Value) (effect : Tree → Location → Except Failure Value × Tree) :
    Prop :=
  ∀ workspace : Workspace, ∃ events : List Event,
    run action workspace = ((effect workspace.tree workspace.directory).1,
      { workspace with
        tree := (effect workspace.tree workspace.directory).2
        events := events ++ workspace.events })

/-- An effect that is followed by another one, unless it fails. -/
def followedBy (effect : Tree → Location → Except Failure Value × Tree)
    (following : Value → Tree → Location → Except Failure Result × Tree) (tree : Tree)
    (directory : Location) : Except Failure Result × Tree :=
  match effect tree directory with
  | (.ok value, changed) => following value changed directory
  | (.error failure, changed) => (.error failure, changed)

theorem followedBy_ok {effect : Tree → Location → Except Failure Value × Tree}
    {following : Value → Tree → Location → Except Failure Result × Tree} {tree changed : Tree}
    {directory : Location} {value : Value} (gave : effect tree directory = (.ok value, changed)) :
    followedBy effect following tree directory = following value changed directory := by
  rw [followedBy, gave]

theorem followedBy_error {effect : Tree → Location → Except Failure Value × Tree}
    {following : Value → Tree → Location → Except Failure Result × Tree} {tree changed : Tree}
    {directory : Location} {failure : Failure}
    (failed : effect tree directory = (.error failure, changed)) :
    followedBy effect following tree directory = (.error failure, changed) := by
  rw [followedBy, failed]

theorem pure_followedBy (value : Value)
    (following : Value → Tree → Location → Except Failure Result × Tree) :
    followedBy (fun tree _ => (.ok value, tree)) following = following value := rfl

theorem followedBy_pure (effect : Tree → Location → Except Failure Value × Tree) :
    followedBy effect (fun value tree _ => (.ok value, tree)) = effect := by
  funext tree directory
  rw [followedBy]
  rcases effect tree directory with ⟨failure | value, changed⟩
  · rfl
  · rfl

theorem followedBy_assoc {Last : Type} (effect : Tree → Location → Except Failure Value × Tree)
    (following : Value → Tree → Location → Except Failure Result × Tree)
    (last : Result → Tree → Location → Except Failure Last × Tree) :
    followedBy (followedBy effect following) last =
      followedBy effect fun value => followedBy (following value) last := by
  funext tree directory
  rw [followedBy, followedBy, followedBy]
  rcases effect tree directory with ⟨failure | value, changed⟩
  · rfl
  · rfl

theorem Observes.performs {kind : Event → Prop} {action : Action Value}
    {outcome : Tree → Location → Except Failure Value} (observed : Observes kind action outcome) :
    Performs action fun tree directory => (outcome tree directory, tree) := by
  intro workspace
  obtain ⟨events, -, ran⟩ := observed workspace
  exact ⟨events, ran⟩

theorem Performs.run_eq {action : Action Value}
    {effect : Tree → Location → Except Failure Value × Tree} (performed : Performs action effect)
    (workspace : Workspace) :
    (run action workspace).1 = (effect workspace.tree workspace.directory).1 ∧
      (run action workspace).2.tree = (effect workspace.tree workspace.directory).2 ∧
      (run action workspace).2.directory = workspace.directory := by
  obtain ⟨events, ran⟩ := performed workspace
  rw [ran]
  exact ⟨rfl, rfl, rfl⟩

theorem Performs.pure (value : Value) :
    Performs (Pure.pure value) fun tree _ => (.ok value, tree) := by
  intro workspace
  exact ⟨[], rfl⟩

theorem Performs.congr {action : Action Value}
    {effect other : Tree → Location → Except Failure Value × Tree}
    (performed : Performs action effect)
    (same : ∀ tree directory, effect tree directory = other tree directory) :
    Performs action other := by
  intro workspace
  rw [← same]
  exact performed workspace

theorem Performs.bind {action : Action Value} {next : Value → Action Result}
    {effect : Tree → Location → Except Failure Value × Tree}
    {following : Value → Tree → Location → Except Failure Result × Tree}
    (first : Performs action effect) (second : ∀ value, Performs (next value) (following value)) :
    Performs (action >>= next) (followedBy effect following) := by
  intro workspace
  obtain ⟨events, ran⟩ := first workspace
  unfold followedBy
  rcases reached : effect workspace.tree workspace.directory with ⟨result, changed⟩
  rw [reached] at ran
  cases result with
  | error failure =>
      refine ⟨events, ?_⟩
      simp only [run_bind, ran]
  | ok value =>
      obtain ⟨later, laterRan⟩ := second value
        { workspace with tree := changed, events := events ++ workspace.events }
      refine ⟨later ++ events, ?_⟩
      simp only [run_bind, ran, laterRan, List.append_assoc]

/-- An action that always gives the same value leaves the effect to the next one. -/
theorem Performs.after {kind : Event → Prop} {action : Action Value} {next : Value → Action Result}
    {value : Value} {effect : Tree → Location → Except Failure Result × Tree}
    (first : Observes kind action fun _ _ => .ok value) (second : Performs (next value) effect) :
    Performs (action >>= next) effect := by
  intro workspace
  obtain ⟨events, -, ran⟩ := first workspace
  obtain ⟨later, laterRan⟩ := second { workspace with events := events ++ workspace.events }
  refine ⟨later ++ events, ?_⟩
  simp only [run_bind, ran, laterRan, List.append_assoc]

/-- A failure that becomes a value leaves what it left. -/
theorem Performs.attempt {action : Action Value}
    {effect : Tree → Location → Except Failure Value × Tree} (performed : Performs action effect) :
    Performs (Action.attempt action) fun tree directory =>
      (.ok (effect tree directory).1, (effect tree directory).2) := by
  intro workspace
  obtain ⟨events, ran⟩ := performed workspace
  refine ⟨events, ?_⟩
  have attempted : run (Action.attempt action) workspace =
      (.ok (run action workspace).1, (run action workspace).2) := rfl
  rw [attempted, ran]

/-- An action that performs an effect and records nothing. -/
def Alters (action : Action Value) (effect : Tree → Location → Except Failure Value × Tree) :
    Prop :=
  ∀ workspace : Workspace,
    run action workspace = ((effect workspace.tree workspace.directory).1,
      { workspace with tree := (effect workspace.tree workspace.directory).2 })

namespace Alters

theorem performs {action : Action Value}
    {effect : Tree → Location → Except Failure Value × Tree} (altered : Alters action effect) :
    Performs action effect := fun workspace => ⟨[], altered workspace⟩

theorem ofExcept (result : Except Failure Value) :
    Alters (Action.ofExcept result) fun tree _ => (result, tree) := run_ofExcept result

theorem pure (value : Value) : Alters (Pure.pure value) fun tree _ => (.ok value, tree) :=
  run_pure value

theorem congr {action : Action Value}
    {effect other : Tree → Location → Except Failure Value × Tree} (altered : Alters action effect)
    (same : ∀ tree directory, effect tree directory = other tree directory) :
    Alters action other := by
  intro workspace
  rw [← same]
  exact altered workspace

theorem bind {action : Action Value} {next : Value → Action Result}
    {effect : Tree → Location → Except Failure Value × Tree}
    {following : Value → Tree → Location → Except Failure Result × Tree}
    (first : Alters action effect) (second : ∀ value, Alters (next value) (following value)) :
    Alters (action >>= next) (followedBy effect following) := by
  intro workspace
  have ran := first workspace
  unfold followedBy
  rcases reached : effect workspace.tree workspace.directory with ⟨result, changed⟩
  rw [reached] at ran
  cases result with
  | error failure => simp only [run_bind, ran]
  | ok value => simp only [run_bind, ran, second value { workspace with tree := changed }]

end Alters

end AssetBundler.Action

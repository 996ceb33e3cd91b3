/-!
Calls that check and assign in stages. What was assigned before a check fails stays as it is, so a
call that fails leaves its object alone only if its checks come first.
-/

namespace AssetBundler

namespace Routine

/-- A check may end a call. An assignment changes the object at once. -/
inductive Stage (State Cause : Type) where
  | check (passes : State → Except Cause Unit)
  | assign (change : State → State)

end Routine

/-- A call as the list of its stages. -/
abbrev Routine (State Cause : Type) := List (Routine.Stage State Cause)

namespace Routine

variable {State Cause Call : Type}

def perform (state : State) : Routine State Cause → Except Cause Unit × State
  | [] => (.ok (), state)
  | .check passes :: rest =>
      match passes state with
      | .ok () => perform state rest
      | .error cause => (.error cause, state)
  | .assign change :: rest => perform (change state) rest

/-- An outcome without a new object keeps the old one. -/
def keep (state : State) : Except Cause State → Except Cause Unit × State
  | .ok changed => (.ok (), changed)
  | .error cause => (.error cause, state)

/-- A check in front is the first thing that can fail. -/
theorem perform_check {state : State} {rest : Routine State Cause} {outcome : Except Cause State}
    (follows : perform state rest = keep state outcome) (passes : State → Except Cause Unit) :
    perform state (.check passes :: rest) = keep state (passes state >>= fun _ => outcome) := by
  rw [perform]
  cases passes state with
  | ok => exact follows
  | error cause => rfl

theorem keep_error {state changed : State} {outcome : Except Cause State} {cause : Cause}
    (kept : keep state outcome = (.error cause, changed)) : changed = state := by
  cases outcome with
  | ok value => cases kept
  | error reason =>
      cases kept
      rfl

/-- Calls are made one after another, whatever their answers are. -/
def run (routine : State → Call → Routine State Cause) (state : State) :
    List Call → List (Except Cause Unit) × State
  | [] => ([], state)
  | call :: rest =>
      let (answer, next) := perform state (routine state call)
      let (answers, last) := run routine next rest
      (answer :: answers, last)

variable {routine : State → Call → Routine State Cause}

theorem run_cons (state : State) (call : Call) (rest : List Call) :
    run routine state (call :: rest) =
      ((perform state (routine state call)).1 ::
          (run routine (perform state (routine state call)).2 rest).1,
        (run routine (perform state (routine state call)).2 rest).2) := rfl

theorem run_append (state : State) (calls others : List Call) :
    run routine state (calls ++ others) =
      ((run routine state calls).1 ++ (run routine (run routine state calls).2 others).1,
        (run routine (run routine state calls).2 others).2) := by
  induction calls generalizing state with
  | nil => rfl
  | cons call rest inductionHypothesis =>
      simp only [List.cons_append, run_cons, inductionHypothesis]

theorem run_concat (state : State) (calls : List Call) (call : Call) :
    run routine state (calls ++ [call]) =
      ((run routine state calls).1 ++
          [(perform (run routine state calls).2 (routine (run routine state calls).2 call)).1],
        (perform (run routine state calls).2 (routine (run routine state calls).2 call)).2) :=
  run_append state calls [call]

/-- What each call preserves is preserved by a run. -/
theorem run_preserves (Holds : State → Prop)
    (each : ∀ state call, Holds state → Holds (perform state (routine state call)).2)
    {state : State} (start : Holds state) (calls : List Call) :
    Holds (run routine state calls).2 := by
  induction calls generalizing state with
  | nil => exact start
  | cons call rest inductionHypothesis =>
      rw [run_cons]
      exact inductionHypothesis (each state call start)

end Routine

end AssetBundler

import AssetBundler.Proofs.Builder.Definition
import AssetBundler.Proofs.Failure.Routine
import AssetBundler.Proofs.Selection.Files

/-!
Tables of selectors as the history of the calls that filled them. The entries tell which keys were
registered first and how each was registered last, and the patterns tell all of it.
-/

namespace AssetBundler.SelectorTable

/-- A call that registers a file, or a directory with the extension of its files. -/
inductive Registration where
  | file (path : String)
  | directory (path extension : String)

namespace Registration

def key : Registration → String
  | .file path => path
  | .directory path _ => path

def kind : Registration → SelectorKind
  | .file _ => .file
  | .directory _ _ => .directory

def pattern : Registration → String
  | .file path => path
  | .directory path extension => path ++ "**/*" ++ extension

/-- A directory is refused when its path is empty or ends with neither kind of slash. -/
def IsRefused : Registration → Prop
  | .file _ => False
  | .directory path _ => path = "" ∨ ¬ ∃ front, path = front ++ "/" ∨ path = front ++ "\\"

theorem isRefused_directory (path extension : String) :
    (directory path extension).IsRefused ↔ endsWithSeparator path = false := by
  rw [IsRefused, ← SourceDefinition.endsWithSeparator_iff, Bool.not_eq_true]
  refine or_iff_right_of_imp ?_
  rintro rfl
  rfl

instance : (call : Registration) → Decidable call.IsRefused
  | .file _ => inferInstanceAs (Decidable False)
  | .directory path extension => decidable_of_iff _ (isRefused_directory path extension).symm

/-- A path is checked before the two assignments of a call. -/
def routine : Registration → Routine SelectorTable OpenDirectory
  | .file path =>
      [.assign fun table => { table with kinds := Assoc.insert table.kinds path .file },
        .assign fun table => { table with patterns := table.patterns ++ [path] }]
  | .directory path extension =>
      [.check fun _ => if endsWithSeparator path then .ok () else .error ⟨path⟩,
        .assign fun table => { table with kinds := Assoc.insert table.kinds path .directory },
        .assign fun table =>
          { table with patterns := table.patterns ++ [directoryPattern path extension] }]

end Registration

open Registration

variable {table : SelectorTable} {call : Registration} {calls : List Registration}

/-- The table and the answer of a call. A call that is refused has no table to give. -/
def register (table : SelectorTable) : Registration → Except OpenDirectory Unit × SelectorTable
  | .file path => (.ok (), table.addFile path)
  | .directory path extension => Routine.keep table (table.addDirectory path extension)

theorem perform_routine (table : SelectorTable) (call : Registration) :
    Routine.perform table call.routine = table.register call := by
  cases call with
  | file path => rfl
  | directory path extension =>
      rw [register, addDirectory, Registration.routine, Routine.perform]
      cases endsWithSeparator path <;> rfl

theorem perform_accepted (accepted : ¬ call.IsRefused) (table : SelectorTable) :
    Routine.perform table call.routine =
      (.ok (),
        ⟨Assoc.insert table.kinds call.key call.kind, table.patterns ++ [call.pattern]⟩) := by
  rw [perform_routine]
  cases call with
  | file path => rfl
  | directory path extension =>
      rw [isRefused_directory, Bool.not_eq_false] at accepted
      rw [register, addDirectory, if_pos accepted]
      rfl

theorem perform_refused (refused : call.IsRefused) (table : SelectorTable) :
    Routine.perform table call.routine = (.error ⟨call.key⟩, table) := by
  rw [perform_routine]
  cases call with
  | file path => cases refused
  | directory path extension =>
      rw [isRefused_directory] at refused
      rw [register, addDirectory, refused]
      rfl

/-- The last call for the key is one for this kind. -/
def IsLast (calls : List Registration) (key : String) (kind : SelectorKind) : Prop :=
  ∃ before call after, calls = before ++ call :: after ∧ call.key = key ∧ call.kind = kind ∧
    ∀ later ∈ after, later.key ≠ key

theorem isLast_concat (calls : List Registration) (call : Registration) :
    IsLast (calls ++ [call]) call.key call.kind :=
  ⟨calls, call, [], rfl, rfl, rfl, by simp⟩

theorem IsLast.concat {key : String} {kind : SelectorKind} (last : IsLast calls key kind)
    (other : call.key ≠ key) : IsLast (calls ++ [call]) key kind := by
  obtain ⟨before, latest, after, rfl, isKey, isKind, later⟩ := last
  refine ⟨before, latest, after ++ [call], by simp, isKey, isKind, ?_⟩
  intro next member
  rcases List.mem_append.mp member with old | new
  · exact later next old
  · rw [List.mem_singleton.mp new]
    exact other

/-- A table holds what these calls have registered. -/
structure Holds (calls : List Registration) (table : SelectorTable) : Prop where
  keys : Assoc.keys table.kinds = firsts (calls.map key)
  kinds : ∀ key kind, Assoc.find? table.kinds key = some kind → IsLast calls key kind
  patterns : table.patterns = calls.map pattern

/-- A key that is known keeps its place and takes the new kind. -/
theorem Holds.enter (holds : Holds calls table) (call : Registration) :
    Holds (calls ++ [call])
      ⟨Assoc.insert table.kinds call.key call.kind, table.patterns ++ [call.pattern]⟩ where
  keys := by
    rw [Assoc.keys_insert, holds.keys, List.map_append, List.map_singleton, firsts_concat]
  kinds := by
    intro key kind found
    rw [Assoc.find?_insert] at found
    split at found
    · next same =>
      cases found
      subst same
      exact isLast_concat calls call
    · next other => exact (holds.kinds key kind found).concat other
  patterns := by rw [holds.patterns, List.map_append, List.map_singleton]

/-- The calls that are not refused. -/
def accepted (calls : List Registration) : List Registration :=
  calls.filter fun call => ¬ call.IsRefused

/-- A directory that was registered has a separator at the end of its path. -/
theorem IsLast.closed {key : String} (last : IsLast (accepted calls) key .directory) :
    ∃ front, key = front ++ "/" ∨ key = front ++ "\\" := by
  obtain ⟨before, call, after, split, isKey, isKind, -⟩ := last
  have isCall : call ∈ accepted calls := by
    rw [split]
    exact List.mem_append_right before List.mem_cons_self
  have notRefused : ¬ call.IsRefused := by simpa using (List.mem_filter.mp isCall).2
  rw [← isKey]
  cases call with
  | file path => cases isKind
  | directory path extension => exact not_not.mp (not_or.mp notRefused).2

/-- What a call is answered. -/
def answer (call : Registration) : Except OpenDirectory Unit :=
  if call.IsRefused then .error ⟨call.key⟩ else .ok ()

/-- The calls are made one after another. -/
def registerAll (calls : List Registration) : List (Except OpenDirectory Unit) × SelectorTable :=
  Routine.run (fun _ call => call.routine) {} calls

/-- The table after the calls holds those that were not refused. -/
theorem holds_registerAll (calls : List Registration) :
    Holds (accepted calls) (registerAll calls).2 := by
  induction calls using List.reverseRecOn with
  | nil => exact ⟨rfl, by simp [registerAll, Routine.run, Assoc.find?], rfl⟩
  | append_singleton calls last inductionHypothesis =>
      rw [registerAll, Routine.run_concat, ← registerAll, accepted, List.filter_append, ← accepted]
      by_cases refused : last.IsRefused
      · simpa [refused, perform_refused refused] using inductionHypothesis
      · simpa [refused, perform_accepted refused] using inductionHypothesis.enter last

theorem answers_run (table : SelectorTable) (calls : List Registration) :
    (Routine.run (fun _ call => call.routine) table calls).1 = calls.map answer := by
  induction calls generalizing table with
  | nil => rfl
  | cons call rest inductionHypothesis =>
      rw [Routine.run_cons, List.map_cons, inductionHypothesis, answer]
      split
      · next refused => rw [perform_refused refused]
      · next accepted => rw [perform_accepted accepted]

theorem keys_entries (table : SelectorTable) :
    table.entries.map Selector.key = Assoc.keys table.kinds := by
  rw [entries, List.map_map]
  rfl

/-- After any calls there is one entry for each key that was registered, in the order in which the
keys were registered first, and of the kind that it was registered as last. The patterns are those
of all calls that were not refused. A call that is refused changes nothing, and the calls do what
their stages do one after another. -/
theorem registration_history (calls : List Registration) :
    let table := (registerAll calls).2
    (registerAll calls).1 = calls.map answer ∧
      table.entries.map Selector.key = firsts ((accepted calls).map key) ∧
      (table.entries.map Selector.key).Nodup ∧
      (∀ selector ∈ table.entries, IsLast (accepted calls) selector.key selector.kind) ∧
      table.patterns = (accepted calls).map pattern ∧
      (∀ selector ∈ table.entries, selector.kind = .directory →
        ∃ front, selector.key = front ++ "/" ∨ selector.key = front ++ "\\") ∧
      ∀ call, Routine.perform table call.routine = table.register call ∧
        (call.IsRefused →
          registerAll (calls ++ [call]) =
            ((registerAll calls).1 ++ [.error ⟨call.key⟩], table)) := by
  intro table
  have holds : Holds (accepted calls) table := holds_registerAll calls
  have keys : table.entries.map Selector.key = firsts ((accepted calls).map key) :=
    (keys_entries table).trans holds.keys
  have distinct : (Assoc.keys table.kinds).Nodup := holds.keys ▸ nodup_firsts _
  have latest : ∀ selector ∈ table.entries,
      IsLast (accepted calls) selector.key selector.kind := by
    intro selector member
    obtain ⟨entry, isEntry, rfl⟩ := List.mem_map.mp member
    exact holds.kinds entry.1 entry.2 (Assoc.find?_of_mem distinct isEntry)
  refine ⟨answers_run {} calls, keys, keys ▸ nodup_firsts _, latest, holds.patterns, ?_, ?_⟩
  · intro selector member isDirectory
    exact (isDirectory ▸ latest selector member).closed
  · intro call
    refine ⟨perform_routine table call, fun refused => ?_⟩
    rw [registerAll, Routine.run_concat, perform_refused refused]
    rfl

/-- A key that is registered as a file first, and then as a directory, keeps its place. -/
theorem registration_history_sample :
    let calls := [file "lib/", directory "src" ".js", file "other.js", directory "lib/" ".js"]
    let table := (registerAll calls).2
    (directory "src" ".js").IsRefused ∧
      table.entries = [⟨"lib/", .directory⟩, ⟨"other.js", .file⟩] ∧
      table.patterns = ["lib/", "other.js", "lib/**/*.js"] ∧
      registerAll (calls ++ [directory "src" ".js"]) =
        ((registerAll calls).1 ++ [.error ⟨"src"⟩], table) := by
  intro calls table
  have refused : (directory "src" ".js").IsRefused := by decide +kernel
  obtain ⟨-, -, -, -, -, -, each⟩ := registration_history calls
  exact ⟨refused, by decide +kernel, by decide +kernel, (each _).2 refused⟩

end AssetBundler.SelectorTable

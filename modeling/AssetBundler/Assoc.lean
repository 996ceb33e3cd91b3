/-!
Tables that keep the order in which their keys were first entered.
-/

namespace AssetBundler

/-- A table lists each key with its value. The operations keep the keys distinct. -/
abbrev Assoc (Value : Type) (Key : Type := String) := List (Key × Value)

namespace Assoc

variable {Key Value : Type}

def keys (table : Assoc Value Key) : List Key := table.map Prod.fst

/-- The entries in the order of their keys. -/
def sorted (table : Assoc Value) : Assoc Value :=
  table.mergeSort fun first second => first.1 ≤ second.1

variable [DecidableEq Key]

def find? (table : Assoc Value Key) (key : Key) : Option Value :=
  match table with
  | [] => none
  | (present, value) :: rest => if present = key then some value else find? rest key

def contains (table : Assoc Value Key) (key : Key) : Bool :=
  (find? table key).isSome

/-- A known key keeps its place and takes the new value. A new key goes to the end. -/
def insert (table : Assoc Value Key) (key : Key) (value : Value) : Assoc Value Key :=
  match table with
  | [] => [(key, value)]
  | (present, old) :: rest =>
      if present = key then (key, value) :: rest else (present, old) :: insert rest key value

/-- The entries of the second table are entered in their order. -/
def merge (table entries : Assoc Value Key) : Assoc Value Key :=
  entries.foldl (fun table entry => insert table entry.1 entry.2) table

theorem find?_insert (table : Assoc Value Key) (key other : Key) (value : Value) :
    find? (insert table key value) other =
      if key = other then some value else find? table other := by
  induction table with
  | nil => simp [insert, find?]
  | cons entry rest inductionHypothesis =>
      by_cases same : entry.1 = key
      · subst same
        by_cases asked : entry.1 = other <;> simp [insert, find?, asked]
      · rw [insert, if_neg same, find?, find?, inductionHypothesis]
        by_cases asked : entry.1 = other
        · have apart : key ≠ other := fun equal => same (asked.trans equal.symm)
          simp [asked, apart]
        · simp [asked]

end Assoc

end AssetBundler

import AssetBundler.Assoc
import Mathlib.Data.List.Nodup

/-!
Tables with distinct keys. New keys go to the end, and old ones keep their places.
-/

namespace AssetBundler.Assoc

variable {Key Value Image : Type}

/-- The table with its values converted. -/
def mapValues (convert : Value → Image) (table : Assoc Value Key) : Assoc Image Key :=
  table.map fun entry => (entry.1, convert entry.2)

theorem keys_mapValues (convert : Value → Image) (table : Assoc Value Key) :
    (mapValues convert table).keys = table.keys := by
  simp only [mapValues, keys, List.map_map]
  rfl

variable [DecidableEq Key] {table : Assoc Value Key} {key : Key}

theorem insert_of_not_mem (value : Value)
    (isNew : key ∉ table.keys) : table.insert key value = table ++ [(key, value)] := by
  induction table with
  | nil => rfl
  | cons entry rest inductionHypothesis =>
      have apart : entry.1 ≠ key ∧ key ∉ keys rest := by
        simpa [keys, eq_comm] using isNew
      rw [insert, if_neg apart.1, inductionHypothesis apart.2]
      rfl

/-- Entries with new keys go to the end. -/
theorem merge_of_nodup {entries : Assoc Value Key}
    (distinct : (table ++ entries).keys.Nodup) : table.merge entries = table ++ entries := by
  induction entries generalizing table with
  | nil => exact (List.append_nil table).symm
  | cons entry rest inductionHypothesis =>
      have isNew : entry.1 ∉ table.keys := by
        intro isOld
        rw [keys, List.map_append, List.nodup_append] at distinct
        exact distinct.2.2 _ isOld _ List.mem_cons_self rfl
      have same : table ++ entry :: rest = (table ++ [entry]) ++ rest := by simp
      rw [same] at distinct ⊢
      rw [← inductionHypothesis distinct, merge, List.foldl_cons, insert_of_not_mem _ isNew]
      rfl

theorem find?_mapValues (convert : Value → Image) (table : Assoc Value Key) (key : Key) :
    (mapValues convert table).find? key = (table.find? key).map convert := by
  induction table with
  | nil => rfl
  | cons entry rest inductionHypothesis =>
      rw [mapValues, List.map_cons, find?, find?]
      split
      · rfl
      · exact inductionHypothesis

theorem mapValues_insert (convert : Value → Image) (table : Assoc Value Key) (key : Key)
    (value : Value) :
    mapValues convert (table.insert key value) =
      (mapValues convert table).insert key (convert value) := by
  induction table with
  | nil => rfl
  | cons entry rest inductionHypothesis =>
      have tail := inductionHypothesis
      simp only [mapValues] at tail
      by_cases same : entry.1 = key
      · simp [insert, mapValues, same]
      · simp [insert, mapValues, same, tail]

/-- Only a new key is added, at the end. -/
theorem keys_insert (table : Assoc Value Key) (key : Key) (value : Value) :
    (table.insert key value).keys =
      if key ∈ table.keys then table.keys else table.keys ++ [key] := by
  split
  · next known =>
    induction table with
    | nil => cases known
    | cons entry rest inductionHypothesis =>
        by_cases same : entry.1 = key
        · simp [insert, keys, same]
        · have later : key ∈ keys rest := by simpa [keys, Ne.symm same] using known
          rw [insert, if_neg same]
          exact congrArg (entry.1 :: ·) (inductionHypothesis later)
  · next isNew =>
    rw [insert_of_not_mem value isNew, keys, List.map_append]
    rfl

/-- A value that is there already changes nothing. -/
theorem insert_of_find? {value : Value} (found : table.find? key = some value) :
    table.insert key value = table := by
  induction table with
  | nil => cases found
  | cons entry rest inductionHypothesis =>
      rw [find?] at found
      rw [insert]
      split at found
      · next same =>
        cases found
        rw [if_pos same, ← same]
      · next apart => rw [if_neg apart, inductionHypothesis found]

/-- The last entry takes a new value. -/
theorem insert_last (old value : Value) (isNew : key ∉ table.keys) :
    insert (table ++ [(key, old)]) key value = table ++ [(key, value)] := by
  induction table with
  | nil => exact if_pos rfl
  | cons entry rest inductionHypothesis =>
      have apart : entry.1 ≠ key ∧ key ∉ keys rest := by
        simpa [keys, eq_comm] using isNew
      rw [List.cons_append, insert, if_neg apart.1, inductionHypothesis apart.2]
      rfl

theorem find?_eq_none : table.find? key = none ↔ key ∉ table.keys := by
  induction table with
  | nil => simp [find?, keys]
  | cons entry rest inductionHypothesis =>
      rw [find?]
      split
      · next same => simp [keys, same]
      · next apart => simpa [keys, Ne.symm apart] using inductionHypothesis

theorem find?_of_mem (distinct : table.keys.Nodup) {value : Value} (member : (key, value) ∈ table) :
    table.find? key = some value := by
  induction table with
  | nil => cases member
  | cons entry rest inductionHypothesis =>
      obtain ⟨isNew, others⟩ := List.nodup_cons.mp distinct
      rw [find?]
      rcases List.mem_cons.mp member with rfl | later
      · exact if_pos rfl
      · have apart : entry.1 ≠ key := fun same => isNew (same ▸ List.mem_map_of_mem later)
        rw [if_neg apart, inductionHypothesis others later]

theorem find?_append_of_not_mem {others : Assoc Value Key} (isNew : key ∉ table.keys) :
    find? (table ++ others) key = others.find? key := by
  induction table with
  | nil => rfl
  | cons entry rest inductionHypothesis =>
      have apart : entry.1 ≠ key ∧ key ∉ keys rest := by
        simpa [keys, eq_comm] using isNew
      rw [List.cons_append, find?, if_neg apart.1, inductionHypothesis apart.2]

/-- What a merged table holds comes from one of the two. -/
theorem find?_merge {entries : Assoc Value Key} {value : Value}
    (found : (table.merge entries).find? key = some value) :
    (key, value) ∈ entries ∨ table.find? key = some value := by
  induction entries generalizing table with
  | nil => exact .inr found
  | cons entry rest inductionHypothesis =>
      rcases @inductionHypothesis (table.insert entry.1 entry.2) found with later | first
      · exact .inl (List.mem_cons_of_mem entry later)
      · rw [find?_insert] at first
        split at first
        · next same =>
          cases first
          subst same
          exact .inl List.mem_cons_self
        · exact .inr first

/-- Entries that agree on a key give it their value. -/
theorem find?_merge_of_agree {entries : Assoc Value Key} {value : Value}
    (agree : ∀ entry ∈ entries, entry.1 = key → entry.2 = value) :
    (table.merge entries).find? key =
      if key ∈ entries.keys then some value else table.find? key := by
  induction entries generalizing table with
  | nil => rfl
  | cons entry rest inductionHypothesis =>
      obtain ⟨first, later⟩ := List.forall_mem_cons.mp agree
      have step := @inductionHypothesis (table.insert entry.1 entry.2) later
      rw [merge, List.foldl_cons, ← merge, step, find?_insert]
      by_cases same : entry.1 = key
      · have here : key ∈ keys (entry :: rest) := same ▸ List.mem_cons_self
        rw [if_pos same, first same, if_pos here, ite_self]
      · have elsewhere : key ∈ keys (entry :: rest) ↔ key ∈ keys rest := by
          simp [keys, Ne.symm same]
        rw [if_neg same]
        simp only [elsewhere]

end AssetBundler.Assoc

import AssetBundler.Text.Blank
import Mathlib.Data.List.DropRight

/-!
Texts without blanks at their ends.
-/

namespace AssetBundler.Text

theorem trimEnd_eq (text : List Char) : trimEnd text = text.rdropWhile isBlank := rfl

/-- Neither the first nor the last character is blank. -/
structure IsTrimmed (text : List Char) : Prop where
  first : ∀ c ∈ text.head?, isBlank c = false
  last : ∀ c ∈ text.getLast?, isBlank c = false

/-- Nothing is dropped from the end of a text that ends with no blank. -/
theorem trimEnd_eq_self {text : List Char} :
    trimEnd text = text ↔ ∀ c ∈ text.getLast?, isBlank c = false := by
  rw [trimEnd_eq, List.rdropWhile_eq_self_iff]
  constructor
  · intro settled c last
    obtain ⟨filled, rfl⟩ := List.mem_getLast?_eq_getLast last
    simpa using settled filled
  · intro settled filled
    simpa using settled _ (List.getLast?_eq_getLast_of_ne_nil filled)

theorem trimEnd_trimEnd (text : List Char) : trimEnd (trimEnd text) = trimEnd text :=
  List.rdropWhile_idempotent isBlank text

theorem dropWhile_eq_self {text : List Char} :
    text.dropWhile isBlank = text ↔ ∀ c ∈ text.head?, isBlank c = false := by
  rw [List.dropWhile_eq_self_iff]
  cases text <;> simp

theorem isTrimmed_trim (text : List Char) : IsTrimmed (trim text) where
  first c isFirst := by
    obtain ⟨rest, shape⟩ := @List.rdropWhile_prefix _ isBlank (text.dropWhile isBlank)
    have starts : c ∈ (text.dropWhile isBlank).head? := by
      rw [← shape, List.head?_append]
      rw [trim, trimEnd_eq] at isFirst
      simp [Option.mem_def.mp isFirst]
    have dark := List.head?_dropWhile_not isBlank text
    rw [Option.mem_def.mp starts] at dark
    simpa using dark
  last := trimEnd_eq_self.mp (trimEnd_trimEnd _)

theorem trim_eq_self {text : List Char} : trim text = text ↔ IsTrimmed text := by
  constructor
  · intro same
    rw [← same]
    exact isTrimmed_trim text
  · intro trimmed
    rw [trim, dropWhile_eq_self.mpr trimmed.first, trimEnd_eq_self.mpr trimmed.last]

theorem strip_eq_self {text : String} : strip text = text ↔ IsTrimmed text.toList := by
  rw [← trim_eq_self, strip]
  constructor
  · intro same
    rw [← String.toList_ofList (l := trim text.toList), same]
  · intro same
    rw [same, String.ofList_toList]

theorem trim_cons {c : Char} (blank : isBlank c = true) (text : List Char) :
    trim (c :: text) = trim text := by
  rw [trim, List.dropWhile_cons_of_pos blank, trim]

theorem trimEnd_concat {c : Char} (blank : isBlank c = true) (text : List Char) :
    trimEnd (text ++ [c]) = trimEnd text := by
  rw [trimEnd_eq, trimEnd_eq, List.rdropWhile_concat_pos _ _ _ blank]

theorem trim_concat {c : Char} (blank : isBlank c = true) (text : List Char) :
    trim (text ++ [c]) = trim text := by
  rw [trim, trim, List.dropWhile_append]
  split
  · next empty =>
    rw [List.dropWhile_cons_of_pos blank, List.isEmpty_iff.mp empty]
    rfl
  · exact trimEnd_concat blank _

/-- Nothing is left of a text when all of it is blank. -/
theorem trim_eq_nil {text : List Char} : trim text = [] ↔ ∀ c ∈ text, isBlank c = true := by
  rw [trim, trimEnd_eq, List.rdropWhile_eq_nil_iff]
  constructor
  · intro blank c member
    rw [← List.takeWhile_append_dropWhile (p := isBlank) (l := text), List.mem_append] at member
    rcases member with early | late
    · exact List.mem_takeWhile_imp early
    · exact blank c late
  · intro blank c member
    exact blank c ((List.dropWhile_sublist isBlank).mem member)

theorem mem_of_mem_trim {text : List Char} {c : Char} (member : c ∈ trim text) : c ∈ text := by
  rw [trim, trimEnd_eq] at member
  exact (List.dropWhile_sublist isBlank).mem ((List.rdropWhile_prefix isBlank _).subset member)

end AssetBundler.Text

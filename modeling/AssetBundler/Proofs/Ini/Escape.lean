import AssetBundler.Ini.Interpolation
import AssetBundler.Proofs.Text.Blank

/-!
Values whose dollar signs are doubled. They hold no reference and are read as they were.
-/

namespace AssetBundler.Ini

/-- A value with its dollar signs doubled. -/
def escape (value : String) : String :=
  String.ofList (value.toList.flatMap fun c => if c = '$' then ['$', '$'] else [c])

theorem toList_escape (value : String) :
    (escape value).toList = value.toList.flatMap fun c => if c = '$' then ['$', '$'] else [c] :=
  String.toList_ofList

theorem mem_escape {value : String} {c : Char} :
    c ∈ (escape value).toList ↔ c ∈ value.toList := by
  rw [toList_escape, List.mem_flatMap]
  constructor
  · rintro ⟨source, member, inImage⟩
    split at inImage
    · next same =>
      subst same
      have isDollar : c = '$' := by simpa using inImage
      exact isDollar ▸ member
    · exact List.mem_singleton.mp inImage ▸ member
  · intro member
    refine ⟨c, member, ?_⟩
    split
    · next same => simp [same]
    · exact List.mem_singleton_self c

theorem head?_escape (value : String) : (escape value).toList.head? = value.toList.head? := by
  rw [toList_escape]
  cases value.toList with
  | nil => rfl
  | cons c rest =>
      rw [List.flatMap_cons]
      split
      · next same => simp [same]
      · rfl

theorem getLast?_escape (value : String) :
    (escape value).toList.getLast? = value.toList.getLast? := by
  rw [toList_escape]
  rcases List.eq_nil_or_concat value.toList with empty | ⟨before, c, shape⟩
  · rw [empty]
    rfl
  · rw [shape, List.concat_eq_append, List.flatMap_append, List.flatMap_singleton]
    split
    · next same => simp [same]
    · simp

theorem isTrimmed_escape {value : String} (trimmed : Text.IsTrimmed value.toList) :
    Text.IsTrimmed (escape value).toList where
  first := by
    rw [head?_escape]
    exact trimmed.first
  last := by
    rw [getLast?_escape]
    exact trimmed.last

/-- An escaped text is read as the text. -/
theorem substituteText_escape {document : Document}
    {follow : String → String → String → Except ReferenceFault (List Char)}
    {section_ option raw : String} (text : List Char) :
    substituteText document follow section_ option raw
      (text.flatMap fun c => if c = '$' then ['$', '$'] else [c]) = .ok text := by
  induction text with
  | nil => simp only [List.flatMap_nil, substituteText]
  | cons c rest inductionHypothesis =>
      rw [List.flatMap_cons]
      by_cases isDollar : c = '$'
      · subst isDollar
        simp only [if_true, List.cons_append, List.nil_append]
        rw [substituteText.eq_def]
        simp only [ne_eq, not_true_eq_false, if_false, inductionHypothesis]
        rfl
      · simp only [isDollar, if_false, List.cons_append, List.nil_append]
        rw [substituteText.eq_def]
        simp only [ne_eq, isDollar, not_false_eq_true, if_true, inductionHypothesis]
        rfl

theorem value_of_escape {document : Document} {section_ option value : String}
    (found : document.raw? section_ option = some (some (escape value))) :
    document.value section_ option = .ok (some value) := by
  simp only [Document.value, found, substitute, depthLimit, toList_escape, substituteText_escape,
    bind, Except.bind, String.ofList_toList]
  rfl

end AssetBundler.Ini

import AssetBundler.Proofs.Text.CodePoint
import AssetBundler.Text.Lines

/-!
Ends and lines of texts. The lines of joined texts are the lines of the texts one after another.
-/

namespace AssetBundler.Text

theorem endsWith_iff {text ending : String} :
    text.endsWith ending = true ↔ ending.toList <:+ text.toList := by
  rw [← String.endsWith_toSlice, String.Slice.endsWith_string_iff, String.copy_toSlice]

theorem splitAt_eq_splitOn {Symbol : Type} [DecidableEq Symbol] (separator : Symbol)
    (text : List Symbol) :
    splitAt separator text = text.splitOn separator := by
  induction text with
  | nil => rfl
  | cons c rest inductionHypothesis =>
      rw [splitAt, inductionHypothesis, List.splitOn_cons_eq_if_modifyHead]
      by_cases same : c = separator
      · simp [same]
      · cases parts : rest.splitOn separator with
        | nil => exact absurd parts (List.splitOn_ne_nil separator rest)
        | cons part others => simp [same]

/-- The last part is how a text ends. -/
theorem getLast_splitAt_suffix (separator : Char) (text : List Char) :
    (splitAt separator text).getLast?.getD [] <:+ text := by
  have ending (parts : List (List Char)) :
      parts.getLast?.getD [] <:+ [separator].intercalate parts := by
    induction parts with
    | nil => exact List.nil_suffix
    | cons part rest inductionHypothesis =>
        cases rest with
        | nil =>
            rw [List.intercalate_singleton]
            exact List.suffix_refl part
        | cons next others =>
            rw [List.intercalate_cons_cons, List.getLast?_cons_cons]
            exact List.suffix_append_of_suffix inductionHypothesis
  have whole := ending (splitAt separator text)
  rwa [splitAt_eq_splitOn, List.intercalate_splitOn, ← splitAt_eq_splitOn] at whole

theorem splitOn_of_not_mem {separator : Char} {text : String} (clean : separator ∉ text.toList) :
    splitOn separator text = [text] := by
  rw [splitOn, splitAt_eq_splitOn, List.splitOn_eq_singleton clean, List.map_singleton,
    String.ofList_toList]

theorem splitOn_ne_nil (separator : Char) (text : String) : splitOn separator text ≠ [] := by
  simp [splitOn, splitAt_eq_splitOn]

theorem splitOn_append (separator : Char) (text rest : String) :
    splitOn separator (text ++ String.singleton separator ++ rest) =
      splitOn separator text ++ splitOn separator rest := by
  simp only [splitOn, splitAt_eq_splitOn, String.toList_append, String.toList_singleton,
    List.append_assoc, List.singleton_append, List.splitOn_append_cons_self, List.map_append]

theorem mem_of_mem_splitAt {separator c : Char} {text part : List Char}
    (isPart : part ∈ splitAt separator text) (member : c ∈ part) : c ∈ text := by
  induction text generalizing part with
  | nil =>
      rw [splitAt, List.mem_singleton] at isPart
      rwa [isPart] at member
  | cons first rest inductionHypothesis =>
      rw [splitAt] at isPart
      split at isPart
      · rcases List.mem_cons.mp isPart with rfl | later
        · cases member
        · exact List.mem_cons_of_mem first (inductionHypothesis later member)
      · split at isPart
        · rw [List.mem_singleton.mp isPart, List.mem_singleton] at member
          exact member ▸ List.mem_cons_self
        · rename_i next others shape
          rcases List.mem_cons.mp isPart with rfl | later
          · rcases List.mem_cons.mp member with rfl | inside
            · exact List.mem_cons_self
            · exact List.mem_cons_of_mem first
                (inductionHypothesis (shape ▸ List.mem_cons_self) inside)
          · exact List.mem_cons_of_mem first
              (inductionHypothesis (shape ▸ List.mem_cons_of_mem next later) member)

/-- The parts of a text consist of its characters. -/
theorem mem_of_mem_splitOn {separator c : Char} {text part : String}
    (isPart : part ∈ splitOn separator text) (member : c ∈ part.toList) : c ∈ text.toList := by
  obtain ⟨characters, isOne, rfl⟩ := List.mem_map.mp isPart
  rw [String.toList_ofList] at member
  exact mem_of_mem_splitAt isOne member

/-- No part of a text holds the separator. -/
theorem separator_not_mem_of_mem_splitAt {separator : Char} {text part : List Char}
    (isPart : part ∈ splitAt separator text) : separator ∉ part := by
  induction text generalizing part with
  | nil =>
      rw [splitAt, List.mem_singleton] at isPart
      rw [isPart]
      exact List.not_mem_nil
  | cons first rest inductionHypothesis =>
      rw [splitAt] at isPart
      split at isPart
      · rcases List.mem_cons.mp isPart with rfl | later
        · exact List.not_mem_nil
        · exact inductionHypothesis later
      · rename_i other
        split at isPart
        · rw [List.mem_singleton.mp isPart, List.mem_singleton]
          exact Ne.symm other
        · rename_i next others shape
          rcases List.mem_cons.mp isPart with rfl | later
          · exact List.not_mem_cons_of_ne_of_not_mem (Ne.symm other)
              (inductionHypothesis (shape ▸ List.mem_cons_self))
          · exact inductionHypothesis (shape ▸ List.mem_cons_of_mem next later)

theorem separator_not_mem_of_mem_splitOn {separator : Char} {text part : String}
    (isPart : part ∈ splitOn separator text) : separator ∉ part.toList := by
  obtain ⟨characters, isOne, rfl⟩ := List.mem_map.mp isPart
  rw [String.toList_ofList]
  exact separator_not_mem_of_mem_splitAt isOne

/-- The parts of a joined text are the parts of the texts. -/
theorem splitAt_intercalate {Symbol : Type} [DecidableEq Symbol] (separator : Symbol)
    {texts : List (List Symbol)} (filled : texts ≠ []) :
    splitAt separator ([separator].intercalate texts) = texts.flatMap (splitAt separator) := by
  induction texts with
  | nil => exact absurd rfl filled
  | cons text rest inductionHypothesis =>
      cases rest with
      | nil => simp
      | cons next others =>
          rw [List.intercalate_cons_cons, List.append_assoc, List.singleton_append,
            splitAt_eq_splitOn, List.splitOn_append_cons_self, ← splitAt_eq_splitOn,
            ← splitAt_eq_splitOn, inductionHypothesis (by simp)]
          rfl

theorem splitOn_intercalate (separator : Char) {texts : List String} (filled : texts ≠ []) :
    splitOn separator ((String.singleton separator).intercalate texts) =
      texts.flatMap (splitOn separator) := by
  induction texts with
  | nil => exact absurd rfl filled
  | cons text rest inductionHypothesis =>
      cases rest with
      | nil => simp
      | cons next others =>
          rw [String.intercalate_cons_cons, splitOn_append, inductionHypothesis (by simp)]
          rfl

/-- Texts without the separator are got back from their joined text. -/
theorem splitOn_intercalate_clean {separator : Char} {texts : List String} (filled : texts ≠ [])
    (clean : ∀ text ∈ texts, separator ∉ text.toList) :
    splitOn separator ((String.singleton separator).intercalate texts) = texts := by
  rw [splitOn_intercalate separator filled]
  clear filled
  induction texts with
  | nil => rfl
  | cons text rest inductionHypothesis =>
      rw [List.flatMap_cons, splitOn_of_not_mem (clean text List.mem_cons_self),
        inductionHypothesis fun other member => clean other (List.mem_cons_of_mem text member)]
      rfl

theorem pointLines_ne_nil (text : CodeText) : pointLines text ≠ [] := by
  rw [pointLines, splitAt_eq_splitOn]
  exact List.splitOn_ne_nil _ text

/-- Texts with a line feed between them. -/
def joinPoints (texts : List CodeText) : CodeText := [CodePoint.ofChar '\n'].intercalate texts

/-- Joining texts joins their lines. -/
theorem pointLines_joinPoints {texts : List CodeText} (filled : texts ≠ []) :
    pointLines (joinPoints texts) = texts.flatMap pointLines :=
  splitAt_intercalate _ filled

/-- Strings are joined as their texts. -/
theorem ofString_joinLines (texts : List String) :
    CodeText.ofString (joinLines texts) = joinPoints (texts.map CodeText.ofString) := by
  induction texts with
  | nil => rfl
  | cons text rest inductionHypothesis =>
      cases rest with
      | nil => simp [joinLines, joinPoints]
      | cons next others =>
          rw [joinLines, joinPoints] at inductionHypothesis ⊢
          rw [String.intercalate_cons_cons, CodeText.ofString_append, CodeText.ofString_append,
            inductionHypothesis, CodeText.ofString_newline]
          exact (List.intercalate_cons_cons ..).symm

/-- A text without a carriage return has nothing to unify. -/
theorem unifyNewlines_eq_self {text : List Char} (noReturn : '\r' ∉ text) :
    unifyNewlines text = text := by
  fun_induction unifyNewlines text with
  | case1 => rfl
  | case2 => exact absurd List.mem_cons_self noReturn
  | case3 => exact absurd List.mem_cons_self noReturn
  | case4 c rest _ _ inductionHypothesis =>
      rw [inductionHypothesis fun member => noReturn (List.mem_cons_of_mem c member)]

end AssetBundler.Text

import AssetBundler.Text.CodePoint
import Mathlib.Data.List.Infix

/-!
Texts as code points. The text of a string holds no surrogate and is shown as the string. A reader
that takes surrogates two by two fuses a text, and it gets back the texts without a pair.
-/

namespace AssetBundler

namespace CodePoint

variable {point leading trailing : CodePoint}

theorem isLeading_iff : point.isLeading = true ↔ 0xD800 ≤ point.val ∧ point.val ≤ 0xDBFF := by
  rw [isLeading, Bool.and_eq_true, decide_eq_true_eq, decide_eq_true_eq]

theorem isTrailing_iff : point.isTrailing = true ↔ 0xDC00 ≤ point.val ∧ point.val ≤ 0xDFFF := by
  rw [isTrailing, Bool.and_eq_true, decide_eq_true_eq, decide_eq_true_eq]

/-- A character is no surrogate. -/
theorem not_surrogate (c : Char) : ¬ (0xD800 ≤ (ofChar c).val ∧ (ofChar c).val ≤ 0xDFFF) := by
  have valid := c.valid
  simp only [UInt32.isValidChar, Nat.isValidChar] at valid
  simp only [ofChar, Char.toNat]
  omega

theorem not_isLeading_ofChar (c : Char) : (ofChar c).isLeading = false := by
  have character := not_surrogate c
  rw [Bool.eq_false_iff, ne_eq, isLeading_iff]
  omega

theorem not_isTrailing_ofChar (c : Char) : (ofChar c).isTrailing = false := by
  have character := not_surrogate c
  rw [Bool.eq_false_iff, ne_eq, isTrailing_iff]
  omega

theorem char?_ofChar (c : Char) : (ofChar c).char? = some c := by
  rw [char?, not_isLeading_ofChar, not_isTrailing_ofChar, Bool.or_self,
    if_neg Bool.false_ne_true]
  exact congrArg some (Char.ofNat_toNat c)

theorem ofChar_injective {c other : Char} (same : ofChar c = ofChar other) : c = other := by
  have characters := congrArg char? same
  rwa [char?_ofChar, char?_ofChar, Option.some_inj] at characters

/-- Every code point is a character, a leading surrogate or a trailing one. -/
theorem cases_char (point : CodePoint) :
    (∃ c, point = ofChar c) ∨ point.isLeading = true ∨ point.isTrailing = true := by
  by_cases isLeading : point.isLeading = true
  · exact .inr (.inl isLeading)
  by_cases isTrailing : point.isTrailing = true
  · exact .inr (.inr isTrailing)
  left
  have bound := point.isLt
  rw [isLeading_iff] at isLeading
  rw [isTrailing_iff] at isTrailing
  have valid : Nat.isValidChar point.val := by
    simp only [Nat.isValidChar]
    omega
  refine ⟨Char.ofNat point.val, Fin.ext ?_⟩
  rw [Char.ofNat, dif_pos valid]
  rfl

theorem char?_of_isLeading (isLeading : point.isLeading = true) : point.char? = none := by
  rw [char?, isLeading, Bool.true_or, if_pos rfl]

theorem char?_of_isTrailing (isTrailing : point.isTrailing = true) : point.char? = none := by
  rw [char?, isTrailing, Bool.or_true, if_pos rfl]

theorem not_isTrailing_of_isLeading (isLeading : point.isLeading = true) :
    point.isTrailing = false := by
  rw [isLeading_iff] at isLeading
  rw [Bool.eq_false_iff, ne_eq, isTrailing_iff]
  omega

theorem val_ofPair (isLeading : leading.isLeading = true)
    (isTrailing : trailing.isTrailing = true) :
    (ofPair leading trailing).val =
      0x10000 + (leading.val - 0xD800) * 0x400 + (trailing.val - 0xDC00) := by
  rw [isLeading_iff] at isLeading
  rw [isTrailing_iff] at isTrailing
  exact Nat.mod_eq_of_lt (by omega)

/-- Two surrogates stand for a character beyond the sixteen-bit range. -/
theorem ofPair_eq_ofChar (isLeading : leading.isLeading = true)
    (isTrailing : trailing.isTrailing = true) :
    ∃ c, ofPair leading trailing = ofChar c ∧
      c.toNat = 0x10000 + (leading.val - 0xD800) * 0x400 + (trailing.val - 0xDC00) := by
  have value := val_ofPair isLeading isTrailing
  rcases cases_char (ofPair leading trailing) with ⟨c, same⟩ | surrogate | surrogate
  · exact ⟨c, same, (congrArg Fin.val same).symm.trans value⟩
  · rw [isLeading_iff] at surrogate
    omega
  · rw [isTrailing_iff] at surrogate
    omega

end CodePoint

namespace CodeText

variable {text : CodeText}

theorem ofString_append (text rest : String) :
    ofString (text ++ rest) = ofString text ++ ofString rest := by
  rw [ofString, String.toList_append, List.map_append]
  rfl

theorem ofString_newline : ofString "\n" = [.ofChar '\n'] := by
  rw [ofString, (by decide +kernel : "\n".toList = ['\n'])]
  rfl

/-- A string is shown without loss. -/
theorem shown_ofString (text : String) : (ofString text).shown = text := by
  have each : ((fun point : CodePoint => point.char?.getD '\uFFFD') ∘ CodePoint.ofChar) = id := by
    funext c
    rw [Function.comp_apply, CodePoint.char?_ofChar]
    rfl
  rw [shown, ofString, List.map_map, each, List.map_id, String.ofList_toList]

@[simp]
theorem ofString_inj {text other : String} : ofString text = ofString other ↔ text = other := by
  refine ⟨fun same => ?_, congrArg ofString⟩
  have shown := congrArg CodeText.shown same
  rwa [shown_ofString, shown_ofString] at shown

/-- Each leading surrogate with the trailing one right behind it becomes the character that the two
stand for. -/
def fuse : CodeText → CodeText
  | first :: second :: rest =>
      if first.isLeading && second.isTrailing then .ofPair first second :: fuse rest
      else first :: fuse (second :: rest)
  | other => other

/-- A leading surrogate stands right before a trailing one. -/
def HasPair (text : CodeText) : Prop :=
  ∃ first second : CodePoint, first.isLeading = true ∧ second.isTrailing = true ∧
    [first, second] <:+: text

theorem length_fuse_le (text : CodeText) : (fuse text).length ≤ text.length := by
  fun_induction fuse text with
  | case1 first second rest _ inductionHypothesis =>
      simp only [List.length_cons]
      omega
  | case2 first second rest _ inductionHypothesis =>
      simp only [List.length_cons] at inductionHypothesis ⊢
      omega
  | case3 => exact Nat.le_refl _

/-- Fusing changes exactly the texts with a pair. -/
theorem fuse_eq_self : fuse text = text ↔ ¬ text.HasPair := by
  fun_induction fuse text with
  | case1 first second rest pair _ =>
      rw [Bool.and_eq_true] at pair
      refine iff_of_false (fun same => ?_) fun none => none
        ⟨first, second, pair.1, pair.2, (List.prefix_append [first, second] rest).isInfix⟩
      have shorter := length_fuse_le rest
      have lengths := congrArg List.length same
      simp only [List.length_cons] at lengths
      omega
  | case2 first second rest noPair inductionHypothesis =>
      rw [List.cons_inj_right, inductionHypothesis]
      refine not_congr ⟨?_, ?_⟩
      · rintro ⟨one, other, isLeading, isTrailing, within⟩
        exact ⟨one, other, isLeading, isTrailing, List.infix_cons within⟩
      · rintro ⟨one, other, isLeading, isTrailing, within⟩
        rcases List.infix_cons_iff.mp within with ⟨after, here⟩ | later
        · cases here
          rw [isLeading, isTrailing] at noPair
          exact absurd rfl noPair
        · exact ⟨one, other, isLeading, isTrailing, later⟩
  | case3 text short =>
      refine iff_of_true rfl ?_
      rintro ⟨one, other, -, -, before, after, whole⟩
      cases before with
      | nil => exact short _ _ _ whole.symm
      | cons first before =>
          cases before with
          | nil => exact short _ _ _ whole.symm
          | cons second before => exact short _ _ _ whole.symm

/-- The text of a string holds no surrogate. -/
theorem not_hasPair_ofString (text : String) : ¬ (ofString text).HasPair := by
  rintro ⟨first, second, isLeading, -, within⟩
  obtain ⟨c, -, rfl⟩ := List.mem_map.mp (within.subset List.mem_cons_self)
  rw [CodePoint.not_isLeading_ofChar] at isLeading
  cases isLeading

@[simp]
theorem fuse_ofString (text : String) : fuse (ofString text) = ofString text :=
  fuse_eq_self.mpr (not_hasPair_ofString text)

end CodeText

end AssetBundler

import AssetBundler.CommonJs.Wrapper
import AssetBundler.Proofs.Json.RoundTrip

/-!
Wrapped modules. The identifier stands in the first line as a string literal, and the wrapped text
tells the identifier, the contents and whether the module is required at once. A pair of surrogates
in an identifier is told as the character that the two stand for.
-/

namespace AssetBundler

namespace Json

/-- A text between quotes, in visible ASCII, that is read as a string. -/
structure IsLiteral (literal : String) (text : CodeText) : Prop where
  quoted : ∃ inner, literal.toList = '"' :: (inner ++ ['"'])
  visible : ∀ c ∈ literal.toList, IsVisible c
  loaded : load literal = .ok (.string text)

theorem isLiteral_quote (text : CodeText) : IsLiteral (quote text) text.fuse := by
  have whole : (quote text).toList = writeString .spaced text := String.toList_ofList
  refine ⟨⟨_, whole⟩, ?_, ?_⟩
  · rw [whole]
    exact fun c member => isVisible_of_mem_writeString rfl member
  · have rendered : quote text = (Json.string text).render .spaced := by
      rw [quote, render, write.eq_def]
      rfl
    rw [rendered]
    exact load_rendered (.string text)

theorem quote_inj {text other : CodeText} : quote text = quote other ↔ text.fuse = other.fuse := by
  rw [quote, quote, String.ofList_inj, writeString_inj]

end Json

namespace CommonJs

open Json (IsLiteral quote)

variable {contents moduleId : CodeText} {options : Options}

/-- What stands before the identifier of a module. -/
def call : String := "require.register("

/-- What stands behind the identifier in the first line. -/
def parameters : String := ", function(exports, require, module)\x7b"

/-- The first line of a wrapped module. -/
def heading (literal : String) : String := call ++ literal ++ parameters

/-- What stands behind the contents of a wrapped module. -/
def closing (literal : String) (required : Bool) : String :=
  if required then "\n\x7d);\nrequire(" ++ literal ++ ");" else "\n\x7d);"

theorem wrapText_eq : wrapText contents moduleId options =
    CodeText.ofString (heading (quote moduleId)) ++ .ofChar '\n' :: (contents ++
      CodeText.ofString (closing (quote moduleId) (options.isSet "auto_require"))) := by
  have feed : (", function(exports, require, module)\x7b\n" : String) =
      ", function(exports, require, module)\x7b" ++ "\n" := by simp
  have again : ("\n\x7d);\nrequire(" : String) = "\n\x7d);" ++ "\nrequire(" := by simp
  unfold wrapText heading call parameters closing
  cases options.isSet "auto_require" with
  | false =>
      simp only [feed, CodeText.ofString_newline, CodeText.ofString_append, List.append_assoc,
        List.cons_append, List.nil_append, Bool.false_eq_true, if_false]
  | true =>
      simp only [feed, again, CodeText.ofString_newline, CodeText.ofString_append,
        List.append_assoc, List.cons_append, List.nil_append, if_true]

/-- Nothing is lost when a wrapped string is shown. -/
theorem ofString_wrap (contents moduleId : String) (options : Options) :
    CodeText.ofString (wrap contents moduleId options) = wrapText contents moduleId options := by
  have feed : CodePoint.ofChar '\n' :: CodeText.ofString contents =
      CodeText.ofString ("\n" ++ contents) := by
    rw [CodeText.ofString_append, CodeText.ofString_newline, List.singleton_append]
  have whole : wrapText contents moduleId options =
      CodeText.ofString (heading (quote moduleId) ++ ("\n" ++ contents ++
        closing (quote moduleId) (options.isSet "auto_require"))) := by
    rw [wrapText_eq, CodeText.ofString_append, CodeText.ofString_append, ← feed]
    rfl
  rw [wrap, whole, CodeText.shown_ofString]

/-- No closing continues another text as the other closing does. -/
theorem append_closing_inj {text other : CodeText} {required demanded : Bool}
    (same : text ++ CodeText.ofString (closing (quote moduleId) required) =
      other ++ CodeText.ofString (closing (quote moduleId) demanded)) :
    text = other ∧ required = demanded := by
  have ends (required : Bool) : ∃ before, CodeText.ofString (closing (quote moduleId) required) =
      before ++ [if required then '"' else '\x7d', ')', ';'].map CodePoint.ofChar := by
    obtain ⟨inner, quoted⟩ := (Json.isLiteral_quote moduleId).quoted
    cases required with
    | false => exact ⟨['\n'].map .ofChar, by simp [closing, CodeText.ofString]⟩
    | true =>
        refine ⟨("\n\x7d);\nrequire(".toList ++ '"' :: inner).map .ofChar, ?_⟩
        simp [closing, quoted, CodeText.ofString]
  by_cases alike : required = demanded
  · subst alike
    exact ⟨List.append_cancel_right same, rfl⟩
  · -- The third character from the end tells the closings apart.
    obtain ⟨before, first⟩ := ends required
    obtain ⟨earlier, second⟩ := ends demanded
    rw [first, second, ← List.append_assoc, ← List.append_assoc] at same
    have tails := List.append_inj_right' same rfl
    have third := CodePoint.ofChar_injective (List.cons.inj tails).1
    cases required <;> cases demanded <;> simp at alike third

/-- The heading is what stands before the first line feed. -/
theorem takeWhile_wrapText :
    (wrapText contents moduleId options).takeWhile (· ≠ .ofChar '\n') =
      CodeText.ofString (heading (quote moduleId)) := by
  have notBreak : ¬ Json.IsVisible '\n' := by decide
  have clean : '\n' ∉ (heading (quote moduleId)).toList := by
    have literal : '\n' ∉ (quote moduleId).toList := fun member =>
      notBreak ((Json.isLiteral_quote moduleId).visible _ member)
    simp only [heading, String.toList_append, List.mem_append, not_or]
    exact ⟨⟨by decide +kernel, literal⟩, by decide +kernel⟩
  have inside : ∀ point ∈ CodeText.ofString (heading (quote moduleId)),
      decide (point ≠ .ofChar '\n') = true := by
    intro point member
    obtain ⟨c, isIn, rfl⟩ := List.mem_map.mp member
    exact decide_eq_true fun feed => clean (CodePoint.ofChar_injective feed ▸ isIn)
  rw [wrapText_eq, List.takeWhile_append_of_pos inside, List.takeWhile_cons_of_neg (by simp),
    List.append_nil]

/-- The first line names the fused identifier as a string literal. A wrapped module is determined by
the contents, the fused identifier and whether it is required at once, and determines these. Only an
identifier with a pair is not its own fused identifier, and no string has a pair. -/
theorem wrap_tells :
    (∀ (contents moduleId : CodeText) (options : Options), ∃ literal,
      IsLiteral literal moduleId.fuse ∧
        (wrapText contents moduleId options).takeWhile (· ≠ .ofChar '\n') =
          CodeText.ofString (heading literal)) ∧
    (∀ (contents moduleId otherContents otherId : CodeText) (options otherOptions : Options),
      wrapText contents moduleId options = wrapText otherContents otherId otherOptions ↔
        contents = otherContents ∧ moduleId.fuse = otherId.fuse ∧
          options.isSet "auto_require" = otherOptions.isSet "auto_require") ∧
    (∀ moduleId : CodeText, moduleId.fuse = moduleId ↔ ¬ moduleId.HasPair) ∧
    ∀ (contents moduleId : String) (options : Options),
      CodeText.ofString (wrap contents moduleId options) = wrapText contents moduleId options ∧
        ¬ (CodeText.ofString moduleId).HasPair := by
  refine ⟨fun contents moduleId options => ?_, ?_, fun moduleId => CodeText.fuse_eq_self,
    fun contents moduleId options =>
      ⟨ofString_wrap contents moduleId options, CodeText.not_hasPair_ofString moduleId⟩⟩
  · exact ⟨quote moduleId, Json.isLiteral_quote moduleId, takeWhile_wrapText⟩
  · intro contents moduleId otherContents otherId options otherOptions
    constructor
    · intro same
      have headings := congrArg (List.takeWhile (· ≠ .ofChar '\n')) same
      rw [takeWhile_wrapText, takeWhile_wrapText, CodeText.ofString_inj, heading, heading,
        String.append_left_inj, String.append_right_inj] at headings
      rw [wrapText_eq, wrapText_eq, headings] at same
      obtain ⟨alike, required⟩ :=
        append_closing_inj (List.cons.inj (List.append_cancel_left same)).2
      exact ⟨alike, Json.quote_inj.mp headings, required⟩
    · rintro ⟨rfl, named, required⟩
      rw [wrapText_eq, wrapText_eq, required, Json.quote_inj.mpr named]

/-- Two surrogates and the character that they stand for are different identifiers. Modules are
wrapped alike under them, and the literal is read as the character. -/
theorem wrap_fuses :
    let apart : CodeText := [0xD83D, 0xDE00]
    let fused : CodeText := [0x1F600]
    apart ≠ fused ∧ ∀ contents options,
      wrapText contents apart options = wrapText contents fused options ∧
        ∀ literal, (wrapText contents apart options).takeWhile (· ≠ .ofChar '\n') =
          CodeText.ofString (heading literal) → ¬ IsLiteral literal apart := by
  intro apart fused
  have differ : apart ≠ fused := by decide
  have image : apart.fuse = fused := by decide
  have same : apart.fuse = fused.fuse := by decide
  refine ⟨differ, fun contents options => ⟨?_, fun literal first isLiteral => ?_⟩⟩
  · rw [wrapText_eq, wrapText_eq, Json.quote_inj.mpr same]
  · rw [takeWhile_wrapText, CodeText.ofString_inj, heading, heading, String.append_left_inj,
      String.append_right_inj] at first
    have read := (Json.isLiteral_quote apart).loaded
    rw [first, isLiteral.loaded, image] at read
    exact differ (Json.string.inj (Except.ok.inj read))

end CommonJs

end AssetBundler

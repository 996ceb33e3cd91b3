import AssetBundler.ModuleId
import Mathlib.Data.List.Infix
import Mathlib.Data.List.TakeWhile

/-!
What the selectors leave of a path that continues another one. The path before counts for nothing
when a key stands in the path behind, and no key reaches from the one into the other until then.
-/

namespace AssetBundler.ModuleId

/-- A closing key stands at the end of a text, any other key anywhere in it. -/
def Finds (closing : Bool) (key text : List Char) : Prop :=
  if closing then key <:+ text else key <:+: text

/-- What is left of a key is how a text starts, or the whole text when the key is closing. -/
def Reaches (closing : Bool) (key text : List Char) : Prop :=
  if closing then key = text else key ≠ [] ∧ key <+: text

/-- A key starts in a text and reaches into the one behind it. -/
def Straddles (closing : Bool) (key before behind : List Char) : Prop :=
  ∃ size ≤ key.length, 0 < size ∧ key.take size <:+ before ∧
    Reaches closing (key.drop size) behind

/-- One of the selectors finds its key in the text behind, and up to it no key straddles. -/
def Frees (before behind : List Char) : List Selector → Prop
  | [] => False
  | selector :: rest =>
      ¬ Straddles selector.isFile (slashed selector.key) before behind ∧
        (Finds selector.isFile (slashed selector.key) behind ∨ Frees before behind rest)

section Deciding

variable {closing : Bool} {key text before behind : List Char}

instance : Decidable (Finds closing key text) := by
  unfold Finds
  infer_instance

instance : Decidable (Reaches closing key text) := by
  unfold Reaches
  infer_instance

instance : Decidable (Straddles closing key before behind) := by
  unfold Straddles
  infer_instance

instance decidableFrees (before behind : List Char) :
    (selectors : List Selector) → Decidable (Frees before behind selectors)
  | [] => inferInstanceAs (Decidable False)
  | selector :: rest =>
      have := decidableFrees before behind rest
      inferInstanceAs (Decidable
        (¬ Straddles selector.isFile (slashed selector.key) before behind ∧
          (Finds selector.isFile (slashed selector.key) behind ∨ Frees before behind rest)))

end Deciding

theorem newline_not_mem_slashed {text : String} (plain : '\n' ∉ text.toList) :
    '\n' ∉ slashed text := by
  intro member
  obtain ⟨c, isChar, same⟩ := List.mem_map.mp member
  split at same
  · cases same
  · exact plain (same ▸ isChar)

section Keys

variable {first c : Char} {more text before behind rest : List Char} {closing : Bool}
  {replacement : List Char}

theorem atEnd_iff (plain : '\n' ∉ text) : atEnd text = true ↔ text = [] := by
  have notBreak : text ≠ ['\n'] := fun same => plain (same ▸ List.mem_singleton_self _)
  simp [atEnd, notBreak]

/-- A key is looked for at the start of a text before its other places. -/
theorem afterKey_cons (plain : '\n' ∉ c :: text) :
    afterKey first more closing (c :: text) =
      if first :: more <+: c :: text ∧ (closing = true → first :: more = c :: text) then
        some (text.drop more.length)
      else afterKey first more closing text := by
  obtain ⟨notBreak, plainText⟩ := not_or.mp fun either => plain (List.mem_cons.mpr either)
  have plainRest : '\n' ∉ text.drop more.length := fun member =>
    plainText (List.mem_of_mem_drop member)
  have starts : (c = first ∧ more.isPrefixOf text = true ∧
      (closing = true → atEnd (text.drop more.length) = true)) ↔
      (first :: more <+: c :: text ∧ (closing = true → first :: more = c :: text)) := by
    rw [List.isPrefixOf_iff_prefix, List.cons_prefix_cons, atEnd_iff plainRest, ← and_assoc,
      eq_comm (a := c)]
    refine and_congr_right fun ⟨same, start⟩ => imp_congr_right fun _ => ?_
    obtain ⟨others, rfl⟩ := start
    rw [List.drop_left, same]
    simp
  rw [afterKey, if_neg (Ne.symm notBreak)]
  exact if_congr starts rfl rfl

theorem afterKey_eq_none (plain : '\n' ∉ text) :
    afterKey first more closing text = none ↔
      ¬ Finds closing (first :: more) text := by
  unfold Finds
  induction text with
  | nil => cases closing <;> simp [afterKey]
  | cons c text inductionHypothesis =>
      rw [afterKey_cons plain]
      have later := inductionHypothesis fun member => plain (List.mem_cons_of_mem c member)
      cases closing with
      | true =>
          simp only [if_true, forall_const, List.suffix_cons_iff, not_or] at later ⊢
          by_cases whole : first :: more = c :: text
          · simp [whole]
          · simpa [whole] using later
      | false =>
          simp only [Bool.false_eq_true, if_false, false_implies, and_true, List.infix_cons_iff,
            not_or] at later ⊢
          by_cases start : first :: more <+: c :: text
          · simp [start]
          · simpa [start] using later

theorem replaceKeys_of_some (found : afterKey first more closing text = some rest) :
    replaceKeys first more closing replacement text =
      replacement ++ replaceKeys first more closing replacement rest := by
  rw [replaceKeys]
  split
  · rename_i other again
    cases found.symm.trans again
    rfl
  · rename_i none
    cases found.symm.trans none

/-- A text without the key stays as it is. -/
theorem replaceKeys_of_none (plain : '\n' ∉ text)
    (missing : afterKey first more closing text = none) :
    replaceKeys first more closing replacement text = text := by
  induction text with
  | nil =>
      rw [replaceKeys]
      simp [afterKey]
  | cons c text inductionHypothesis =>
      have plainText : '\n' ∉ text := fun member => plain (List.mem_cons_of_mem c member)
      have later : afterKey first more closing text = none := by
        rw [afterKey_eq_none plain] at missing
        rw [afterKey_eq_none plainText]
        refine fun there => missing ?_
        unfold Finds at there ⊢
        cases closing with
        | true => exact there.trans (List.suffix_cons c text)
        | false => exact there.trans (List.suffix_cons c text).isInfix
      rw [replaceKeys]
      split
      · rename_i rest found
        cases missing.symm.trans found
      · exact congrArg (List.cons c) (inductionHypothesis plainText later)

/-- A key that does not reach into a text from all of another does not from an end of it. -/
theorem not_straddles_of_suffix {key shorter : List Char}
    (apart : ¬ Straddles closing key before behind) (ending : shorter <:+ before) :
    ¬ Straddles closing key shorter behind :=
  fun ⟨size, fits, positive, start, reaches⟩ =>
    apart ⟨size, fits, positive, start.trans ending, reaches⟩

theorem straddles_whole {key : List Char} (filled : before ≠ [])
    (reaches : Reaches closing key behind) : Straddles closing (before ++ key) before behind := by
  refine ⟨before.length, by simp, List.length_pos_iff.mpr filled, ?_, ?_⟩
  · rw [List.take_left]
  · rwa [List.drop_left]

/-- A closing key that does not straddle is looked for behind. -/
theorem afterKey_append_closing (plain : '\n' ∉ before ++ behind)
    (apart : ¬ Straddles true (first :: more) before behind) :
    afterKey first more true (before ++ behind) = afterKey first more true behind := by
  induction before with
  | nil => rfl
  | cons c before inductionHypothesis =>
      have notWhole : first :: more ≠ c :: (before ++ behind) := fun whole => by
        refine apart ?_
        rw [whole, ← List.cons_append]
        exact straddles_whole (List.cons_ne_nil c before) rfl
      rw [List.cons_append] at plain ⊢
      rw [afterKey_cons plain, if_neg fun starts => notWhole (starts.2 rfl)]
      exact inductionHypothesis (fun member => plain (List.mem_cons_of_mem c member))
        (not_straddles_of_suffix apart (List.suffix_cons c before))

/-- Any other key that does not straddle is looked for before and then behind. -/
theorem afterKey_append (plain : '\n' ∉ before ++ behind)
    (apart : ¬ Straddles false (first :: more) before behind) :
    afterKey first more false (before ++ behind) =
      ((afterKey first more false before).map (· ++ behind)).or
        (afterKey first more false behind) := by
  induction before with
  | nil => simp [afterKey]
  | cons c before inductionHypothesis =>
      have plainBefore : '\n' ∉ c :: before := fun member =>
        plain (List.mem_append_left behind member)
      have later := inductionHypothesis
        (fun member => plain (List.mem_cons_of_mem c member))
        (not_straddles_of_suffix apart (List.suffix_cons c before))
      rw [List.cons_append] at plain ⊢
      rw [afterKey_cons plain, afterKey_cons plainBefore]
      simp only [Bool.false_eq_true, false_implies, and_true]
      by_cases start : first :: more <+: c :: before
      · have lies : first :: more <+: c :: (before ++ behind) :=
          start.trans (List.prefix_append (c :: before) behind)
        have fits : more.length ≤ before.length := Nat.le_of_succ_le_succ start.length_le
        rw [if_pos start, if_pos lies, List.drop_append_of_le_length fits]
        rfl
      · have notOver : ¬ first :: more <+: c :: (before ++ behind) := fun lies => by
          rcases List.prefix_or_prefix_of_prefix lies (List.prefix_append (c :: before) behind) with
            inside | ⟨others, whole⟩
          · exact start inside
          · refine apart ?_
            rw [← whole]
            rw [← whole, ← List.cons_append, List.prefix_append_right_inj] at lies
            refine straddles_whole (List.cons_ne_nil c before) ⟨fun none => start ?_, lies⟩
            rw [← whole, none, List.append_nil]
        rw [if_neg start, if_neg notOver, later]

theorem afterKey_suffix (plain : '\n' ∉ text)
    (found : afterKey first more closing text = some rest) : rest <:+ text := by
  induction text with
  | nil => cases found
  | cons c text inductionHypothesis =>
      rw [afterKey_cons plain] at found
      split at found
      · cases found
        exact (List.drop_suffix _ text).trans (List.suffix_cons c text)
      · have plainText : '\n' ∉ text := fun member => plain (List.mem_cons_of_mem c member)
        exact (inductionHypothesis plainText found).trans (List.suffix_cons c text)

/-- A key that stands behind takes away everything before, and any other key leaves what is behind
as it is. -/
theorem replaceKeys_append {before : List Char} (plain : '\n' ∉ before ++ behind)
    (apart : ¬ Straddles false (first :: more) before behind) :
    ∃ left, left <:+ before ∧ (Finds false (first :: more) behind → left = []) ∧
      replaceKeys first more false [] (before ++ behind) =
        left ++ replaceKeys first more false [] behind := by
  have plainBefore : '\n' ∉ before := fun member => plain (List.mem_append_left behind member)
  have plainBehind : '\n' ∉ behind := fun member => plain (List.mem_append_right before member)
  have divided := afterKey_append plain apart
  cases early : afterKey first more false before with
  | some rest =>
      -- The search goes on behind the key, and what it leaves ends the text before too.
      have ending := afterKey_suffix plainBefore early
      have plainRest : '\n' ∉ rest ++ behind := fun member =>
        (List.mem_append.mp member).elim (fun inRest => plainBefore (ending.subset inRest))
          plainBehind
      obtain ⟨left, leftEnds, emptied, replaced⟩ :=
        replaceKeys_append plainRest (not_straddles_of_suffix apart ending)
      rw [early] at divided
      refine ⟨left, leftEnds.trans ending, emptied, ?_⟩
      exact (replaceKeys_of_some divided).trans replaced
  | none =>
      rw [early, Option.map_none, Option.none_or] at divided
      cases late : afterKey first more false behind with
      | some rest =>
          refine ⟨[], List.nil_suffix, fun _ => rfl, ?_⟩
          rw [replaceKeys_of_some (divided.trans late), replaceKeys_of_some late]
          rfl
      | none =>
          refine ⟨before, List.suffix_refl before, ?_, ?_⟩
          · exact fun finds => absurd finds ((afterKey_eq_none plainBehind).mp late)
          · rw [replaceKeys_of_none plain (divided.trans late),
              replaceKeys_of_none plainBehind late]
  termination_by before.length
  decreasing_by exact afterKey_length early

/-- The same of a closing key, in whose place something may be put. -/
theorem replaceKeys_append_closing (plain : '\n' ∉ before ++ behind)
    (apart : ¬ Straddles true (first :: more) before behind) :
    ∃ left, left <:+ before ∧ (Finds true (first :: more) behind → left = []) ∧
      replaceKeys first more true replacement (before ++ behind) =
        left ++ replaceKeys first more true replacement behind := by
  have plainBehind : '\n' ∉ behind := fun member => plain (List.mem_append_right before member)
  have same := afterKey_append_closing plain apart
  cases late : afterKey first more true behind with
  | some rest =>
      refine ⟨[], List.nil_suffix, fun _ => rfl, ?_⟩
      rw [replaceKeys_of_some (same.trans late), replaceKeys_of_some late, List.nil_append]
  | none =>
      refine ⟨before, List.suffix_refl before, ?_, ?_⟩
      · exact fun finds => absurd finds ((afterKey_eq_none plainBehind).mp late)
      · rw [replaceKeys_of_none plain (same.trans late), replaceKeys_of_none plainBehind late]

end Keys

section Selectors

variable {selector : Selector} {selectors : List Selector} {text before behind : List Char}

/-- A text without a line feed is a last line. -/
theorem dropLastLine_eq_nil (plain : '\n' ∉ text) : dropLastLine text = [] := by
  have noneAtEnd : (text.reverse.take 1).filter (· == '\n') = [] := by
    refine List.filter_eq_nil_iff.mpr fun c member => ?_
    have inside : c ∈ text := List.mem_reverse.mp (List.mem_of_mem_take member)
    simpa using fun same : c = '\n' => plain (same ▸ inside)
  have all : ∀ c ∈ text.reverse, (c != '\n') = true := fun c member => by
    simpa using fun same : c = '\n' => plain (same ▸ List.mem_reverse.mp member)
  simp [dropLastLine, noneAtEnd, List.dropWhile_eq_nil_iff.mpr all]

theorem filter_newlines_eq_nil (plain : '\n' ∉ text) : text.filter (· == '\n') = [] :=
  List.filter_eq_nil_iff.mpr fun c member => by
    simpa using fun same : c = '\n' => plain (same ▸ member)

/-- What a selector leaves of a text behind stands behind what it leaves of the text before, and
that is nothing when it finds its key behind. -/
theorem stripSelector_append (plain : '\n' ∉ before ++ behind)
    (apart : ¬ Straddles selector.isFile (slashed selector.key) before behind) :
    ∃ left, left <:+ before ∧
      (Finds selector.isFile (slashed selector.key) behind → left = []) ∧
      stripSelector (before ++ behind) selector = left ++ stripSelector behind selector := by
  have plainBehind : '\n' ∉ behind := fun member => plain (List.mem_append_right before member)
  obtain ⟨key, kind⟩ := selector
  simp only [stripSelector, Selector.isFile] at apart ⊢
  cases kind with
  | file =>
      cases spelled : slashed key with
      | nil =>
          refine ⟨[], List.nil_suffix, fun _ => rfl, ?_⟩
          simp only [dropLastLine_eq_nil plain, dropLastLine_eq_nil plainBehind, List.nil_append]
      | cons first more =>
          rw [spelled] at apart
          exact replaceKeys_append_closing plain apart
  | directory =>
      cases spelled : slashed key with
      | nil =>
          refine ⟨[], List.nil_suffix, fun _ => rfl, ?_⟩
          simp only [filter_newlines_eq_nil plain, filter_newlines_eq_nil plainBehind,
            List.nil_append]
      | cons first more =>
          rw [spelled] at apart
          exact replaceKeys_append plain apart

/-- A text without its key is left as it is by a selector. -/
theorem stripSelector_of_missing (plain : '\n' ∉ text)
    (missing : ¬ Finds selector.isFile (slashed selector.key) text) :
    stripSelector text selector = text := by
  obtain ⟨key, kind⟩ := selector
  simp only [stripSelector, Selector.isFile] at missing ⊢
  cases kind with
  | file =>
      cases spelled : slashed key with
      | nil =>
          rw [spelled] at missing
          exact absurd List.nil_suffix missing
      | cons first more =>
          rw [spelled] at missing
          exact replaceKeys_of_none plain ((afterKey_eq_none plain).mpr missing)
  | directory =>
      cases spelled : slashed key with
      | nil =>
          rw [spelled] at missing
          exact absurd List.nil_infix missing
      | cons first more =>
          rw [spelled] at missing
          exact replaceKeys_of_none plain ((afterKey_eq_none plain).mpr missing)

theorem Frees.of_suffix {shorter : List Char} (frees : Frees before behind selectors)
    (ending : shorter <:+ before) : Frees shorter behind selectors := by
  induction selectors with
  | nil => exact frees
  | cons selector rest inductionHypothesis =>
      exact ⟨not_straddles_of_suffix frees.1 ending, frees.2.imp_right inductionHypothesis⟩

/-- Selectors that free a text of what stands before make the same of it with and without. -/
theorem foldl_stripSelector_append (plain : '\n' ∉ before ++ behind)
    (frees : Frees before behind selectors) :
    selectors.foldl stripSelector (before ++ behind) = selectors.foldl stripSelector behind := by
  induction selectors generalizing before with
  | nil => exact frees.elim
  | cons selector rest inductionHypothesis =>
      have plainBehind : '\n' ∉ behind := fun member =>
        plain (List.mem_append_right before member)
      obtain ⟨apart, finds | later⟩ := frees
      · obtain ⟨left, -, emptied, stripped⟩ := stripSelector_append plain apart
        rw [List.foldl_cons, List.foldl_cons, stripped, emptied finds, List.nil_append]
      · obtain ⟨left, ending, emptied, stripped⟩ := stripSelector_append plain apart
        rw [List.foldl_cons, List.foldl_cons, stripped]
        by_cases finds : Finds selector.isFile (slashed selector.key) behind
        · rw [emptied finds, List.nil_append]
        · rw [stripSelector_of_missing plainBehind finds]
          refine inductionHypothesis (fun member => ?_) (later.of_suffix ending)
          exact (List.mem_append.mp member).elim
            (fun inLeft => plain (List.mem_append_left behind (ending.subset inLeft))) plainBehind

end Selectors

end AssetBundler.ModuleId

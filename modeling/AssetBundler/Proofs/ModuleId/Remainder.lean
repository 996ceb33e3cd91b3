import AssetBundler.Proofs.ModuleId.Stripping
import AssetBundler.Proofs.Text.Lines

/-!
What the selectors leave of a path. It ends the path, no key of a directory stands in it, and the
selectors leave it as it is.
-/

namespace AssetBundler.ModuleId

section Keys

variable {first : Char} {more text replacement : List Char}

/-- A closing key at the end of a text is found there. -/
theorem afterKey_of_suffix (plain : '\n' ∉ text) (ends : first :: more <:+ text) :
    afterKey first more true text = some [] := by
  induction text with
  | nil => exact absurd (List.suffix_nil.mp ends) (List.cons_ne_nil first more)
  | cons c text inductionHypothesis =>
      have plainText : '\n' ∉ text := fun member => plain (List.mem_cons_of_mem c member)
      rw [afterKey_cons plain]
      rcases List.suffix_cons_iff.mp ends with whole | later
      · rw [if_pos ⟨whole ▸ List.prefix_refl _, fun _ => whole⟩, (List.cons.inj whole).2,
          List.drop_length]
      · have notWhole : first :: more ≠ c :: text := fun whole => by
          have shorter := later.length_le
          rw [whole, List.length_cons] at shorter
          omega
        rw [if_neg fun starts => notWhole (starts.2 rfl)]
        exact inductionHypothesis plainText later

theorem replaceKeys_of_suffix (plain : '\n' ∉ text) (ends : first :: more <:+ text) :
    replaceKeys first more true replacement text = replacement := by
  rw [replaceKeys_of_some (afterKey_of_suffix plain ends),
    replaceKeys_of_none List.not_mem_nil rfl, List.append_nil]

/-- What is left when a key is cut everywhere ends the text, and the key does not stand in it. -/
theorem replaceKeys_remainder {text : List Char} (plain : '\n' ∉ text) :
    replaceKeys first more false [] text <:+ text ∧
      ¬ first :: more <:+: replaceKeys first more false [] text := by
  cases found : afterKey first more false text with
  | some rest =>
      have ending := afterKey_suffix plain found
      rw [replaceKeys_of_some found, List.nil_append]
      have plainRest : '\n' ∉ rest := fun member => plain (ending.subset member)
      obtain ⟨ends, gone⟩ := replaceKeys_remainder plainRest
      exact ⟨ends.trans ending, gone⟩
  | none =>
      rw [replaceKeys_of_none plain found]
      exact ⟨List.suffix_refl text, (afterKey_eq_none plain).mp found⟩
  termination_by text.length
  decreasing_by exact afterKey_length found

end Keys

/-- The part of a key after its last slash. -/
def baseName (key : List Char) : List Char := (Text.splitAt '/' key).getLast?.getD []

theorem baseName_suffix (key : List Char) : baseName key <:+ key :=
  Text.getLast_splitAt_suffix '/' key

section Selectors

variable {selector : Selector} {selectors : List Selector} {key : String}
  {text rest : List Char}

/-- A file selector leaves the base name of its key where the key ends a text. -/
theorem stripSelector_file (plain : '\n' ∉ text) :
    stripSelector text ⟨key, .file⟩ =
      if slashed key <:+ text then baseName (slashed key) else text := by
  split
  · rename_i ends
    simp only [stripSelector]
    cases spelled : slashed key with
    | nil => exact dropLastLine_eq_nil plain
    | cons first more =>
        rw [spelled] at ends
        exact replaceKeys_of_suffix plain ends
  · rename_i missing
    exact @stripSelector_of_missing ⟨key, .file⟩ text plain missing

theorem stripSelector_directory (plain : '\n' ∉ text) :
    stripSelector text ⟨key, .directory⟩ <:+ text ∧
      (slashed key ≠ [] → ¬ slashed key <:+: stripSelector text ⟨key, .directory⟩) := by
  simp only [stripSelector]
  cases spelled : slashed key with
  | nil =>
      simp only [filter_newlines_eq_nil plain]
      exact ⟨List.nil_suffix, fun filled => absurd rfl filled⟩
  | cons first more =>
      obtain ⟨ends, gone⟩ := @replaceKeys_remainder first more text plain
      exact ⟨ends, fun _ => gone⟩

theorem stripSelector_suffix (plain : '\n' ∉ text) : stripSelector text selector <:+ text := by
  obtain ⟨key, kind⟩ := selector
  cases kind with
  | file =>
      rw [stripSelector_file plain]
      split
      · rename_i ends
        exact (baseName_suffix (slashed key)).trans ends
      · exact List.suffix_refl text
  | directory => exact (stripSelector_directory plain).1

/-- A selector finds nothing to cut in an end of what it has left. -/
theorem stripSelector_of_suffix (plain : '\n' ∉ text)
    (ending : rest <:+ stripSelector text selector) : stripSelector rest selector = rest := by
  have plainRest : '\n' ∉ rest := fun member =>
    plain ((ending.trans (stripSelector_suffix plain)).subset member)
  obtain ⟨key, kind⟩ := selector
  cases kind with
  | file =>
      rw [stripSelector_file plain] at ending
      rw [stripSelector_file plainRest]
      split at ending
      · -- The key can only end the base name of its own when it is that name.
        split
        · rename_i ends
          have shorter := (baseName_suffix (slashed key)).length_le
          have whole := ends.eq_of_length_le (ending.length_le.trans shorter)
          rw [← whole] at ending ⊢
          exact (baseName_suffix (slashed key)).eq_of_length_le ending.length_le
        · rfl
      · rename_i missing
        rw [if_neg fun ends => missing (ends.trans ending)]
  | directory =>
      cases spelled : slashed key with
      | nil =>
          simp only [stripSelector, spelled, filter_newlines_eq_nil plain] at ending
          rw [List.suffix_nil.mp ending]
          simp only [stripSelector, spelled, List.filter_nil]
      | cons first more =>
          have filled : slashed key ≠ [] := spelled ▸ List.cons_ne_nil first more
          have gone := (stripSelector_directory plain).2 filled
          exact @stripSelector_of_missing ⟨key, .directory⟩ rest plainRest
            fun there => gone (there.trans ending.isInfix)

/-- What the selectors leave ends the text. It holds no key of a directory, and none of them finds
anything more to cut. -/
theorem foldl_stripSelector_remainder (plain : '\n' ∉ text) :
    selectors.foldl stripSelector text <:+ text ∧
      ∀ selector ∈ selectors,
        stripSelector (selectors.foldl stripSelector text) selector =
            selectors.foldl stripSelector text ∧
          (selector.kind = .directory → slashed selector.key ≠ [] →
            ¬ slashed selector.key <:+: selectors.foldl stripSelector text) := by
  induction selectors generalizing text with
  | nil => exact ⟨List.suffix_refl text, List.forall_mem_nil _⟩
  | cons selector rest inductionHypothesis =>
      have first := @stripSelector_suffix selector text plain
      obtain ⟨ending, later⟩ := inductionHypothesis fun member => plain (first.subset member)
      rw [List.foldl_cons]
      refine ⟨ending.trans first, List.forall_mem_cons.mpr ⟨⟨?_, ?_⟩, later⟩⟩
      · exact stripSelector_of_suffix plain ending
      · obtain ⟨key, kind⟩ := selector
        rintro rfl filled there
        exact (stripSelector_directory plain).2 filled (there.trans ending.isInfix)

theorem foldl_stripSelector_of_settled
    (settled : ∀ selector ∈ selectors, stripSelector text selector = text) :
    selectors.foldl stripSelector text = text := by
  induction selectors with
  | nil => rfl
  | cons selector rest inductionHypothesis =>
      obtain ⟨first, later⟩ := List.forall_mem_cons.mp settled
      rw [List.foldl_cons, first]
      exact inductionHypothesis later

end Selectors

/-- No backslash is left where backslashes are read as slashes. -/
theorem backslash_not_mem_slashed (text : String) : '\\' ∉ slashed text := by
  intro member
  obtain ⟨c, -, same⟩ := List.mem_map.mp member
  split at same
  · cases same
  · rename_i other
    exact other same

theorem slashed_ofList {text : List Char} (plain : '\\' ∉ text) :
    slashed (String.ofList text) = text := by
  have each : ∀ c ∈ text, (if c = '\\' then '/' else c) = id c := fun c member =>
    if_neg fun same : c = '\\' => plain (same ▸ member)
  rw [slashed, String.toList_ofList, List.map_congr_left each, List.map_id]

/-- The selectors leave an end of a path. No directory that was registered stands in it, and the
selectors leave it as it is, in whatever order they come. -/
theorem stripSelectors_settles {path : String} {selectors : List Selector}
    (plain : '\n' ∉ path.toList)
    (filled : ∀ selector ∈ selectors, selector.kind = .directory → selector.key ≠ "") :
    (stripSelectors path selectors).toList <:+ slashed path ∧
      (∀ selector ∈ selectors, selector.kind = .directory →
        ¬ slashed selector.key <:+: (stripSelectors path selectors).toList) ∧
      stripSelectors (stripSelectors path selectors) selectors =
        stripSelectors path selectors := by
  obtain ⟨ending, settled⟩ :=
    @foldl_stripSelector_remainder selectors _ (newline_not_mem_slashed plain)
  have text : (stripSelectors path selectors).toList =
      selectors.foldl stripSelector (slashed path) := String.toList_ofList
  refine ⟨text ▸ ending, fun selector member isDirectory => ?_, ?_⟩
  · rw [text]
    refine (settled selector member).2 isDirectory fun empty => ?_
    exact filled selector member isDirectory
      (String.toList_eq_nil_iff.mp (List.map_eq_nil_iff.mp empty))
  · have again := foldl_stripSelector_of_settled fun selector member => (settled selector member).1
    rw [stripSelectors, stripSelectors,
      slashed_ofList fun member => backslash_not_mem_slashed path (ending.subset member), again]

/-- A key that overlaps itself is cut twice, and the file that is left loses its directory. -/
theorem stripSelectors_settles_sample :
    let path := "C:\\web\\src/a.b/aaa/aab/x+y.js"
    let selectors : List Selector := [⟨"aa", .directory⟩, ⟨"b\\x+y.js", .file⟩,
      ⟨"a.b/", .directory⟩, ⟨"src\\", .directory⟩]
    ('\n' ∉ path.toList ∧
        ∀ selector ∈ selectors, selector.kind = .directory → selector.key ≠ "") ∧
      stripSelectors path selectors = "x+y.js" ∧
      (stripSelectors path selectors).toList <:+ slashed path ∧
      (∀ selector ∈ selectors, selector.kind = .directory →
        ¬ slashed selector.key <:+: (stripSelectors path selectors).toList) ∧
      stripSelectors (stripSelectors path selectors) selectors =
        stripSelectors path selectors := by
  intro path selectors
  have plain : '\n' ∉ path.toList := by decide +kernel
  have filled : ∀ selector ∈ selectors, selector.kind = .directory → selector.key ≠ "" := by
    decide +kernel
  exact ⟨⟨plain, filled⟩, by decide +kernel, stripSelectors_settles plain filled⟩

end AssetBundler.ModuleId

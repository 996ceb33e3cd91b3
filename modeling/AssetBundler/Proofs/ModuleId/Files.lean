import AssetBundler.Proofs.ModuleId.Remainder

/-!
What file selectors leave of the path of a file. That is the base name of the file, unless the key
of another file is how this name ends. Then it is the base name of another file.
-/

namespace AssetBundler.ModuleId

section BaseNames

variable {before behind key text : List Char}

theorem baseName_of_not_mem (plain : '/' ∉ key) : baseName key = key := by
  rw [baseName, Text.splitAt_eq_splitOn, List.splitOn_eq_singleton plain]
  rfl

theorem baseName_append (before behind : List Char) :
    baseName (before ++ '/' :: behind) = baseName behind := by
  rw [baseName, baseName, Text.splitAt_eq_splitOn, Text.splitAt_eq_splitOn,
    List.splitOn_append_cons_self,
    List.getLast?_append_of_ne_nil _ (List.splitOn_ne_nil '/' behind)]

theorem slash_not_mem_baseName (key : List Char) : '/' ∉ baseName key := by
  rw [baseName]
  cases last : (Text.splitAt '/' key).getLast? with
  | none => exact List.not_mem_nil
  | some part => exact Text.separator_not_mem_of_mem_splitAt (List.mem_of_getLast? last)

/-- A base name stands behind the last slash. -/
theorem exists_baseName (isPath : '/' ∈ text) :
    ∃ before, text = before ++ '/' :: baseName text := by
  obtain ⟨behind, before, whole, plain⟩ := List.eq_append_cons_of_mem (List.mem_reverse.mpr isPath)
  have divided : text = before.reverse ++ '/' :: behind.reverse := by
    rw [← List.reverse_reverse text, whole]
    simp
  refine ⟨before.reverse, ?_⟩
  rw [divided, baseName_append,
    baseName_of_not_mem fun member => plain (List.mem_reverse.mp member)]

/-- A name without a slash ends a path when it ends the base name of it. -/
theorem suffix_baseName (plain : '/' ∉ key) (ends : key <:+ text) : key <:+ baseName text := by
  by_cases isPath : '/' ∈ text
  · obtain ⟨before, whole⟩ := exists_baseName isPath
    rw [whole] at ends
    rcases List.suffix_or_suffix_of_suffix ends (List.suffix_append before _) with inside | beyond
    · rcases List.suffix_cons_iff.mp inside with whole | later
      · exact absurd (whole ▸ List.mem_cons_self) plain
      · exact later
    · exact absurd (beyond.subset List.mem_cons_self) plain
  · rwa [baseName_of_not_mem isPath]

/-- A path that ends another one has the same base name. -/
theorem baseName_of_suffix (isPath : '/' ∈ key) (ends : key <:+ text) :
    baseName key = baseName text := by
  obtain ⟨front, rfl⟩ := ends
  obtain ⟨before, behind, rfl⟩ := List.append_of_mem isPath
  rw [baseName_append, ← List.append_assoc, baseName_append]

end BaseNames

/-- What file selectors leave of a text. -/
def afterFiles (keys : List String) (text : List Char) : List Char :=
  (keys.map fun key => (⟨key, .file⟩ : Selector)).foldl stripSelector text

/-- Another key is how the base name of a key ends. -/
def IsShadowed (keys : List String) (key : String) : Prop :=
  ∃ other ∈ keys, other ≠ key ∧ slashed other <:+ baseName (slashed key)

instance (keys : List String) (key : String) : Decidable (IsShadowed keys key) :=
  inferInstanceAs (Decidable
    (∃ other ∈ keys, other ≠ key ∧ slashed other <:+ baseName (slashed key)))

/-- No two keys have one base name. -/
def HaveNames (keys : List String) : Prop :=
  ∀ key ∈ keys, ∀ other ∈ keys, baseName (slashed key) = baseName (slashed other) → key = other

section Files

variable {keys : List String} {own : String} {text before : List Char}

/-- What is left ends the text, and a key that ends it is a base name that is left as it is. -/
theorem afterFiles_settles (plain : '\n' ∉ text) :
    afterFiles keys text <:+ text ∧
      ∀ key ∈ keys, slashed key <:+ afterFiles keys text →
        baseName (slashed key) = afterFiles keys text := by
  obtain ⟨ending, settled⟩ := @foldl_stripSelector_remainder
    (keys.map fun key => (⟨key, .file⟩ : Selector)) text plain
  refine ⟨ending, fun key member ends => ?_⟩
  have plainLeft : '\n' ∉ afterFiles keys text := fun inside => plain (ending.subset inside)
  have kept := (settled ⟨key, .file⟩ (List.mem_map_of_mem member)).1
  rw [← afterFiles, stripSelector_file plainLeft, if_pos ends] at kept
  exact kept

/-- The text is left, or the base name of a key that has ended it. -/
theorem afterFiles_cases (plain : '\n' ∉ text) :
    afterFiles keys text = text ∨
      ∃ key ∈ keys, slashed key <:+ text ∧ afterFiles keys text = baseName (slashed key) := by
  induction keys generalizing text with
  | nil => exact Or.inl rfl
  | cons key rest inductionHypothesis =>
      have step : afterFiles (key :: rest) text = afterFiles rest
          (if slashed key <:+ text then baseName (slashed key) else text) := by
        rw [afterFiles, List.map_cons, List.foldl_cons, stripSelector_file plain, ← afterFiles]
      rw [step]
      split
      · rename_i ends
        have shorter := (baseName_suffix (slashed key)).trans ends
        rcases inductionHypothesis fun member => plain (shorter.subset member) with
          same | ⟨later, member, further, same⟩
        · exact Or.inr ⟨key, List.mem_cons_self, ends, same⟩
        · exact Or.inr ⟨later, List.mem_cons_of_mem key member, further.trans shorter, same⟩
      · exact (inductionHypothesis plain).imp_right fun ⟨later, member, further, same⟩ =>
          ⟨later, List.mem_cons_of_mem key member, further, same⟩

section Paths

variable (named : HaveNames keys) (member : own ∈ keys)
  (closed : before.getLast? = some '/') (plain : '\n' ∉ before ++ slashed own)
include named member closed plain

omit plain in
/-- A key that ends the path of a file is its own, or how the name of the file ends. -/
theorem suffix_baseName_of_suffix_path {key : String} (isKey : key ∈ keys)
    (ends : slashed key <:+ before ++ slashed own) :
    key = own ∨ '/' ∉ slashed key ∧ slashed key <:+ baseName (slashed own) := by
  obtain ⟨front, rfl⟩ := List.getLast?_eq_some_iff.mp closed
  have whole : baseName (front ++ ['/'] ++ slashed own) = baseName (slashed own) := by
    rw [List.append_assoc, List.singleton_append, baseName_append]
  by_cases spelled : '/' ∈ slashed key
  · exact Or.inl (named key isKey own member ((baseName_of_suffix spelled ends).trans whole))
  · exact Or.inr ⟨spelled, whole ▸ suffix_baseName spelled ends⟩

/-- The path of a file is not left as it is, since it ends with the key of the file. -/
theorem exists_afterFiles :
    ∃ key ∈ keys, (key = own ∨ '/' ∉ slashed key ∧ slashed key <:+ baseName (slashed own)) ∧
      afterFiles keys (before ++ slashed own) = baseName (slashed key) := by
  rcases afterFiles_cases plain with same | ⟨key, isKey, ends, same⟩
  · have ends : slashed own <:+ afterFiles keys (before ++ slashed own) := by
      rw [same]
      exact List.suffix_append before (slashed own)
    have kept := ((afterFiles_settles plain).2 own member ends).trans same
    have isPath : '/' ∈ before ++ slashed own :=
      List.mem_append_left _ (List.mem_of_getLast? closed)
    exact absurd (kept ▸ isPath) (slash_not_mem_baseName (slashed own))
  · exact ⟨key, isKey, suffix_baseName_of_suffix_path named member closed isKey ends, same⟩

/-- The base name of a file is left when it ends with no other key. -/
theorem afterFiles_of_not_shadowed (free : ¬ IsShadowed keys own) :
    afterFiles keys (before ++ slashed own) = baseName (slashed own) := by
  obtain ⟨key, isKey, rfl | ⟨-, ends⟩, same⟩ := exists_afterFiles named member closed plain
  · exact same
  · by_cases other : key = own
    · rw [same, other]
    · exact absurd ⟨key, isKey, other, ends⟩ free

/-- Otherwise the base name of another file is left, which itself ends with no other key. -/
theorem afterFiles_of_shadowed (shadowed : IsShadowed keys own) :
    ∃ other ∈ keys, other ≠ own ∧ '/' ∉ slashed other ∧
      slashed other <:+ baseName (slashed own) ∧ ¬ IsShadowed keys other ∧
      afterFiles keys (before ++ slashed own) = baseName (slashed other) := by
  obtain ⟨key, isKey, shape, same⟩ := exists_afterFiles named member closed plain
  have settled := (@afterFiles_settles keys _ plain).2
  rw [same] at settled
  have free : ¬ IsShadowed keys key := fun ⟨other, isOther, apart, ends⟩ =>
    apart (named other isOther key isKey (settled other isOther ends))
  rcases shape with rfl | ⟨isName, ends⟩
  · exact absurd shadowed free
  · exact ⟨key, isKey, fun isOwn => free (isOwn ▸ shadowed), isName, ends, free, same⟩

end Paths

end Files

end AssetBundler.ModuleId

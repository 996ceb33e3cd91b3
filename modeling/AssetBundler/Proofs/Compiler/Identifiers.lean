import AssetBundler.Compiler.Basic
import AssetBundler.Proofs.ModuleId.Remainder

/-!
Identifiers of the modules of one directory. They are made of the namespace and the way below the
directory, which loses its extension.
-/

namespace AssetBundler

namespace ModuleId

section Extensions

variable {text stem ending : List Char}

/-- A point and the characters of an extension. -/
def IsExtension (ending : List Char) : Prop :=
  ∃ letters, ending = '.' :: letters ∧ letters ≠ [] ∧ ∀ c ∈ letters, isExtensionChar c = true

theorem not_atEnd {c : Char} (member : c ∈ text) (notBreak : c ≠ '\n') : atEnd text = false := by
  rw [Bool.eq_false_iff, atEnd, Ne, Bool.or_eq_true, beq_iff_eq, beq_iff_eq]
  rintro (rfl | rfl)
  · cases member
  · exact notBreak (List.mem_singleton.mp member)

/-- An extension at the end goes with its point, and nothing else goes. -/
theorem dropExtension_append (isExtension : IsExtension ending) :
    dropExtension (stem ++ ending) = stem := by
  obtain ⟨letters, rfl, filled, each⟩ := isExtension
  induction stem with
  | nil =>
      have taken : letters.takeWhile isExtensionChar = letters :=
        List.takeWhile_eq_self_iff.mpr each
      have nothing : letters.dropWhile isExtensionChar = [] := List.dropWhile_eq_nil_iff.mpr each
      rw [List.nil_append, dropExtension, taken, nothing, if_pos ⟨rfl, filled, rfl⟩]
  | cons c stem inductionHypothesis =>
      -- The point of the extension lies behind, so a point here does not start it.
      have point : '.' ∈ (stem ++ '.' :: letters).dropWhile isExtensionChar := by
        have inside : '.' ∈ stem ++ '.' :: letters :=
          List.mem_append_right stem List.mem_cons_self
        rw [← List.takeWhile_append_dropWhile (l := stem ++ '.' :: letters), List.mem_append]
          at inside
        exact inside.resolve_left fun taken =>
          absurd (List.mem_takeWhile_imp taken) (by decide)
      have notEnd := not_atEnd point (by decide)
      rw [List.cons_append, dropExtension, if_neg fun ends => ?_, inductionHypothesis]
      rw [notEnd] at ends
      exact Bool.false_ne_true ends.2.2

/-- A text that does not end with an extension stays as it is. -/
theorem dropExtension_of_none (plain : '\n' ∉ text)
    (none : ∀ ending, IsExtension ending → ¬ ending <:+ text) : dropExtension text = text := by
  induction text with
  | nil => rfl
  | cons c text inductionHypothesis =>
      have plainText : '\n' ∉ text := fun member => plain (List.mem_cons_of_mem c member)
      rw [dropExtension, if_neg, inductionHypothesis plainText fun ending isExtension ends =>
        none ending isExtension (ends.trans (List.suffix_cons c text))]
      rintro ⟨rfl, filled, ends⟩
      have plainRest : '\n' ∉ text.dropWhile isExtensionChar := fun member =>
        plainText ((List.dropWhile_suffix _).subset member)
      have each := List.dropWhile_eq_nil_iff.mp ((atEnd_iff plainRest).mp ends)
      rw [List.takeWhile_eq_self_iff.mpr each] at filled
      exact none _ ⟨text, rfl, filled, each⟩ (List.suffix_refl _)

end Extensions

/-- A normalized namespace ends with a slash and holds no backslash. -/
theorem exists_normalizeNamespace (name : String) :
    ∃ text : List Char, normalizeNamespace name = String.ofList text ∧
      text.getLast? = some '/' ∧ '\\' ∉ text := by
  have plain := backslash_not_mem_slashed name
  by_cases ends : (slashed name).getLast? = some '/'
  · exact ⟨slashed name, by simp only [normalizeNamespace, if_pos ends], ends, plain⟩
  · refine ⟨slashed name ++ ['/'], by simp only [normalizeNamespace, if_neg ends],
      List.getLast?_concat, ?_⟩
    simpa using plain

theorem normalizeNamespace_normalizeNamespace (name : String) :
    normalizeNamespace (normalizeNamespace name) = normalizeNamespace name := by
  obtain ⟨text, spelled, ends, plain⟩ := exists_normalizeNamespace name
  rw [spelled]
  simp only [normalizeNamespace, slashed_ofList plain, if_pos ends]

section Directories

variable {first : Char} {more text rest before way : List Char} {key path : String}

theorem exists_of_afterKey (plain : '\n' ∉ text)
    (found : afterKey first more false text = some rest) :
    ∃ others, text = others ++ (first :: more) ++ rest := by
  induction text with
  | nil => cases found
  | cons c text inductionHypothesis =>
      rw [afterKey_cons plain] at found
      split at found
      · rename_i starts
        obtain ⟨tail, whole⟩ := starts.1
        have behind : more ++ tail = text := (List.cons.inj whole).2
        rw [← behind, List.drop_left] at found
        cases found
        exact ⟨[], whole.symm⟩
      · obtain ⟨others, rfl⟩ :=
          inductionHypothesis (fun member => plain (List.mem_cons_of_mem c member)) found
        exact ⟨c :: others, rfl⟩

/-- A path by a way below a directory, whose key stands nowhere else in it. -/
structure LiesIn (key : String) (before way : List Char) (path : String) : Prop where
  plain : '\n' ∉ path.toList
  whole : slashed path = before ++ slashed key ++ way
  once : ∀ others after, slashed path = others ++ slashed key ++ after → others = before

/-- It is enough to look for the key at each place of the path. -/
theorem liesIn_of_places (plain : '\n' ∉ path.toList)
    (whole : slashed path = before ++ slashed key ++ way)
    (places : ∀ place ∈ List.range ((slashed path).length + 1),
      slashed key <+: (slashed path).drop place → place = before.length) :
    LiesIn key before way path := by
  refine ⟨plain, whole, fun others after divided => ?_⟩
  have fits : others.length < (slashed path).length + 1 := by
    rw [divided, List.length_append, List.length_append]
    omega
  have starts : slashed key <+: (slashed path).drop others.length := by
    rw [divided, List.append_assoc, List.drop_left]
    exact List.prefix_append _ _
  have same := places others.length (List.mem_range.mpr fits) starts
  rw [whole, List.append_assoc, List.append_assoc] at divided
  exact (List.append_inj_left divided same.symm).symm

/-- The key of the directory is cut with all that stands before it. -/
theorem stripSelectors_directory (filled : slashed key ≠ []) (lies : LiesIn key before way path) :
    stripSelectors path [⟨key, .directory⟩] = String.ofList way := by
  have plain := newline_not_mem_slashed lies.plain
  rw [stripSelectors, List.foldl_cons, List.foldl_nil, stripSelector]
  cases spelled : slashed key with
  | nil => exact absurd spelled filled
  | cons first more =>
      obtain ⟨-, whole, once⟩ := lies
      rw [spelled] at whole once
      cases found : afterKey first more false (slashed path) with
      | none =>
          refine absurd ?_ ((afterKey_eq_none plain).mp found)
          exact ⟨before, way, whole.symm⟩
      | some rest =>
          obtain ⟨others, divided⟩ := exists_of_afterKey plain found
          obtain rfl := once others rest divided
          obtain rfl := List.append_cancel_left (divided.symm.trans whole)
          -- A second key behind would be another place of it in the path.
          have gone : afterKey first more false rest = none := by
            refine (afterKey_eq_none fun member => plain ?_).mpr ?_
            · exact (afterKey_suffix plain found).subset member
            · rintro ⟨between, after, rfl⟩
              have again := once (others ++ (first :: more) ++ between) after (by
                rw [whole]
                simp only [List.append_assoc])
              rw [List.append_assoc, List.append_right_eq_self] at again
              cases again
          have plainRest : '\n' ∉ rest := fun member =>
            plain ((afterKey_suffix plain found).subset member)
          simp only [replaceKeys_of_some found, replaceKeys_of_none plainRest gone,
            List.nil_append]

/-- A registered directory is read with a slash at its end. -/
theorem exists_slashed_of_closed (closed : SelectorTable.endsWithSeparator key = true) :
    ∃ front, slashed key = front ++ ['/'] := by
  rw [SelectorTable.endsWithSeparator, Option.any_eq_true] at closed
  obtain ⟨last, isLast, separates⟩ := closed
  obtain ⟨front, shape⟩ := List.getLast?_eq_some_iff.mp isLast
  refine ⟨front.map fun c => if c = '\\' then '/' else c, ?_⟩
  rw [slashed, shape, List.map_append, List.map_singleton]
  rcases Bool.or_eq_true _ _ ▸ separates with slash | backslash
  · rw [beq_iff_eq.mp slash]
    rfl
  · rw [beq_iff_eq.mp backslash]
    rfl

/-- An extension at the end of a path lies behind the directory. -/
theorem LiesIn.suffix_way {ending : List Char} (lies : LiesIn key before way path)
    (closed : SelectorTable.endsWithSeparator key = true) (isExtension : IsExtension ending)
    (ends : ending <:+ slashed path) : ending <:+ way := by
  have noSlash : '/' ∉ ending := by
    obtain ⟨letters, rfl, -, each⟩ := isExtension
    intro member
    rcases List.mem_cons.mp member with point | inside
    · cases point
    · exact absurd (each '/' inside) (by decide)
  obtain ⟨front, spelled⟩ := exists_slashed_of_closed closed
  rw [lies.whole, spelled] at ends
  rcases List.suffix_or_suffix_of_suffix ends (List.suffix_append _ way) with
    inside | ⟨beyond, rfl⟩
  · exact inside
  · rcases List.eq_nil_or_concat beyond with rfl | ⟨others, last, rfl⟩
    · exact List.suffix_refl way
    · obtain ⟨start, whole⟩ := ends
      rw [← List.append_assoc, List.append_cancel_right_eq, List.concat_eq_append,
        ← List.append_assoc, ← List.append_assoc] at whole
      have slash : last = '/' := List.singleton_inj.mp (List.append_inj_right' whole rfl)
      refine absurd ?_ noSlash
      rw [slash, List.concat_eq_append]
      exact List.mem_append_left way (List.mem_append_right others List.mem_cons_self)

end Directories

end ModuleId

namespace Compiler

open ModuleId (LiesIn IsExtension normalizeNamespace)

variable {compiler : Compiler} {key name : String} {before way : List Char} {source : SourceFile}

/-- A namespace that was set is normalized, and the empty name is read as a slash. -/
theorem normalizeNamespace_scope
    (named : compiler.scope = if name = "" then "" else normalizeNamespace name) :
    normalizeNamespace compiler.scope = normalizeNamespace name := by
  rw [named]
  split
  · rename_i empty
    rw [empty]
  · exact ModuleId.normalizeNamespace_normalizeNamespace name

/-- The identifier of a module of the only directory that is registered. -/
theorem moduleId_eq (only : compiler.table.entries = [⟨key, .directory⟩])
    (closed : SelectorTable.endsWithSeparator key = true)
    (named : compiler.scope = if name = "" then "" else normalizeNamespace name)
    (lies : LiesIn key before way source.origin.toString) :
    compiler.moduleId source =
      normalizeNamespace name ++ String.ofList (ModuleId.dropExtension way) := by
  obtain ⟨front, spelled⟩ := ModuleId.exists_slashed_of_closed closed
  have filled : ModuleId.slashed key ≠ [] := by
    rw [spelled]
    exact List.append_ne_nil_of_right_ne_nil _ (List.cons_ne_nil _ _)
  rw [moduleId, ModuleId.ofPath, only, ModuleId.stripSelectors_directory filled lies,
    normalizeNamespace_scope named, String.toList_ofList]

end Compiler

end AssetBundler

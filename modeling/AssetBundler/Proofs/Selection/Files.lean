import AssetBundler.Proofs.Assoc
import AssetBundler.Proofs.Path.Relative
import AssetBundler.Proofs.Selection.Patterns
import AssetBundler.SelectorTable

/-!
Selection of files that are registered one by one. Each is selected once, at the place where it was
registered first.
-/

namespace AssetBundler

namespace SelectorTable

/-- The keys in the order of their first entries. -/
def firsts (keys : List String) : List String :=
  keys.foldl (fun once key => if key ∈ once then once else once ++ [key]) []

theorem firsts_concat (keys : List String) (key : String) :
    firsts (keys ++ [key]) = if key ∈ firsts keys then firsts keys else firsts keys ++ [key] := by
  rw [firsts, List.foldl_append, List.foldl_cons, List.foldl_nil, ← firsts]

theorem mem_firsts {keys : List String} {key : String} : key ∈ firsts keys ↔ key ∈ keys := by
  induction keys using List.reverseRecOn with
  | nil => exact Iff.rfl
  | append_singleton keys last inductionHypothesis =>
      rw [firsts_concat, List.mem_append, List.mem_singleton]
      split
      · rename_i known
        rw [inductionHypothesis, or_iff_left_of_imp]
        rintro rfl
        exact inductionHypothesis.mp known
      · rw [List.mem_append, List.mem_singleton, inductionHypothesis]

theorem nodup_firsts (keys : List String) : (firsts keys).Nodup := by
  induction keys using List.reverseRecOn with
  | nil => exact List.nodup_nil
  | append_singleton keys last inductionHypothesis =>
      rw [firsts_concat]
      split
      · exact inductionHypothesis
      · rename_i isNew
        exact List.concat_eq_append ▸ inductionHypothesis.concat isNew

/-- Each file has one entry, at the place where it was registered first. -/
theorem foldl_addFile (keys : List String) :
    keys.foldl addFile {} = ⟨(firsts keys).map fun key => (key, .file), keys⟩ := by
  induction keys using List.reverseRecOn with
  | nil => rfl
  | append_singleton keys last inductionHypothesis =>
      have listed : Assoc.keys ((firsts keys).map fun key => (key, SelectorKind.file)) =
          firsts keys := by
        simp [Assoc.keys, Function.comp_def]
      rw [List.foldl_append, inductionHypothesis, List.foldl_cons, List.foldl_nil, addFile,
        firsts_concat]
      split
      · rename_i known
        have found : Assoc.find? ((firsts keys).map fun key => (key, SelectorKind.file)) last =
            some .file :=
          Assoc.find?_of_mem (listed.symm ▸ nodup_firsts keys)
            (List.mem_map.mpr ⟨last, known, rfl⟩)
        rw [Assoc.insert_of_find? found]
      · rename_i isNew
        rw [Assoc.insert_of_not_mem _ (listed.symm ▸ isNew), List.map_append, List.map_singleton]

theorem entries_foldl_addFile (keys : List String) :
    (keys.foldl addFile {}).entries = (firsts keys).map fun key => ⟨key, .file⟩ := by
  rw [foldl_addFile, entries, List.map_map]
  rfl

end SelectorTable

namespace Selection

variable {tree : Tree} {base : Path} {key : String}

/-- A relative text that normalization leaves as it is, and that ends with a name. -/
structure NamesFile (key : String) : Prop where
  relative : Path.anchorOf key.toList = .here
  normal : (Path.ofString key).normalize.toString = key
  named : (Path.ofString key).name ≠ "" ∧ (Path.ofString key).name ≠ ".."

/-- A base that is normalized. -/
structure IsBase (base : Path) : Prop where
  straight : base.IsStraight
  clean : ∀ part ∈ base.parts, '\x00' ∉ part.toList

/-- Names are stacked one upon the other, whether or not the path is absolute. -/
theorem foldl_pushPart_names {anchored : Bool} {parts : List String}
    (names : ∀ part ∈ parts, part ≠ "." ∧ part ≠ "..") (stack : List String) :
    (parts.foldl (Path.pushPart anchored) stack).reverse = stack.reverse ++ parts := by
  induction parts generalizing stack with
  | nil => exact (List.append_nil _).symm
  | cons part rest inductionHypothesis =>
      obtain ⟨notHere, notUp⟩ := names part List.mem_cons_self
      rw [List.foldl_cons, Path.pushPart.eq_def, if_neg notHere, if_pos notUp,
        inductionHypothesis fun other member => names other (List.mem_cons_of_mem part member),
        List.reverse_cons, List.append_assoc, List.singleton_append]

/-- A key is spelled by the steps that it names. -/
theorem NamesFile.spelled (names : NamesFile key) (level : ".." ∉ Text.splitOn '/' key) :
    literalSteps key ≠ [] ∧ "/".intercalate (literalSteps key) = key := by
  have plain : ∀ part ∈ (Path.ofString key).parts, part ≠ "." ∧ part ≠ ".." := by
    intro part member
    obtain ⟨isOne, isPart⟩ := List.mem_filter.mp member
    exact ⟨(Path.isPart_iff.mp isPart).2, fun up => level (up ▸ isOne)⟩
  have normal : (Path.ofString key).normalize = ⟨.here, literalSteps key⟩ := by
    rw [Path.normalize, foldl_pushPart_names plain, List.reverse_nil, List.nil_append,
      Path.ofString, names.relative]
    rfl
  have spelled := names.normal
  rw [normal, Path.toString] at spelled
  split at spelled
  · have nameless : (Path.ofString key).name = "" := by
      rw [← spelled]
      decide +kernel
    exact absurd nameless names.named.1
  · rename_i filled
    rw [Anchor.text, String.empty_append] at filled spelled
    refine ⟨fun none => filled ?_, spelled⟩
    rw [none, String.intercalate_nil]

/-- The path of a file below a base goes on after the text of the base with the key. -/
theorem NamesFile.toString_literalPath (names : NamesFile key) (isBase : IsBase base)
    (level : ".." ∉ Text.splitOn '/' key) :
    (literalPath base key).toString = base.lead ++ key := by
  obtain ⟨deeper, spelled⟩ := names.spelled level
  rw [literalPath_below names.relative level isBase.straight isBase.clean,
    Path.toString_below isBase.straight.absolute deeper, spelled]

/-- Keys that stay below the base lead to different files. -/
theorem NamesFile.literalPath_inj {other : String} (names : NamesFile key)
    (otherNames : NamesFile other) (isBase : IsBase base) (level : ".." ∉ Text.splitOn '/' key)
    (otherLevel : ".." ∉ Text.splitOn '/' other) :
    literalPath base key = literalPath base other ↔ key = other := by
  constructor
  · intro same
    have texts := congrArg Path.toString same
    rwa [names.toString_literalPath isBase level, otherNames.toString_literalPath isBase otherLevel,
      String.append_right_inj] at texts
  · exact congrArg (literalPath base)

/-- Files are selected in the order of their first entries. -/
theorem expand_files {keys : List String} (isBase : IsBase base)
    (named : ∀ key ∈ keys, NamesFile key) (level : ∀ key ∈ keys, ".." ∉ Text.splitOn '/' key)
    (exist : ∀ key ∈ keys, tree.isFile [] (literalPath base key) = .ok true) :
    expand tree base keys = .ok ((SelectorTable.firsts keys).map (literalPath base)) := by
  induction keys using List.reverseRecOn with
  | nil => rfl
  | append_singleton keys last inductionHypothesis =>
      have inFront {key : String} (member : key ∈ keys) : key ∈ keys ++ [last] :=
        List.mem_append_left [last] member
      have isLast : last ∈ keys ++ [last] := List.mem_append_right keys (List.mem_singleton_self _)
      have before := inductionHypothesis (fun key member => named key (inFront member))
        (fun key member => level key (inFront member))
        fun key member => exist key (inFront member)
      have behind : expand tree base [last] = .ok [literalPath base last] := by
        rw [expand, expandFrom, expandPattern_literal (exist last isLast)]
        rfl
      have known : literalPath base last ∈
          (SelectorTable.firsts keys).map (literalPath base) ↔
            last ∈ SelectorTable.firsts keys := by
        constructor
        · intro member
          obtain ⟨key, isKey, same⟩ := List.mem_map.mp member
          have inKeys := inFront (SelectorTable.mem_firsts.mp isKey)
          rwa [← ((named key inKeys).literalPath_inj (named last isLast) isBase (level key inKeys)
            (level last isLast)).mp same]
        · exact List.mem_map_of_mem
      rw [expand_append, before, behind, SelectorTable.firsts_concat]
      simp only [Except.bind, Except.map, List.filter_singleton, known, Except.ok.injEq]
      by_cases isKnown : last ∈ SelectorTable.firsts keys <;> simp [isKnown]

end Selection

end AssetBundler

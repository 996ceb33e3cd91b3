import AssetBundler.Config.Basic
import AssetBundler.Proofs.Assoc
import AssetBundler.Proofs.Text.Lines

/-!
Plain values. A value without references and without blanks at its ends is taken as it is written,
and so a bundle of plain values is what its section says.
-/

namespace AssetBundler

/-- A value without references and without blanks at its ends. -/
structure IsPlainValue (value : String) : Prop where
  noReference : '$' ∉ value.toList
  stripped : Text.strip value = value

namespace Ini

theorem substituteText_of_plain {document : Document}
    {follow : String → String → String → Except ReferenceFault (List Char)}
    {section_ option raw : String} {text : List Char} (noReference : '$' ∉ text) :
    substituteText document follow section_ option raw text = .ok text := by
  induction text with
  | nil => simp only [substituteText]
  | cons c rest inductionHypothesis =>
      have here : c ≠ '$' := fun same => noReference (same ▸ List.mem_cons_self)
      rw [substituteText.eq_def]
      dsimp only
      rw [if_pos here, inductionHypothesis fun later => noReference (List.mem_cons_of_mem c later)]
      rfl

theorem value_of_plain {document : Document} {section_ option raw : String}
    (found : document.raw? section_ option = some (some raw)) (plain : IsPlainValue raw) :
    document.value section_ option = .ok (some raw) := by
  simp only [Document.value, found, substitute, depthLimit,
    substituteText_of_plain plain.noReference, bind, Except.bind, String.ofList_toList]
  rfl

end Ini

namespace Config

variable {config : Config} {name : String}

/-- The options of a section have these values. -/
structure Holds (config : Config) (section_ : String) (entries : Assoc String) : Prop where
  names : config.document.optionNames section_ = entries.keys
  distinct : entries.keys.Nodup
  values : ∀ entry ∈ entries, config.document.value section_ entry.1 = .ok (some entry.2) ∧
    Text.strip entry.2 = entry.2

theorem values_of_holds {asked section_ : String} {entries : Assoc String}
    (values : ∀ entry ∈ entries, config.document.value section_ entry.1 = .ok (some entry.2) ∧
      Text.strip entry.2 = entry.2) :
    config.values asked section_ entries.keys = .ok entries := by
  induction entries with
  | nil => rfl
  | cons entry rest inductionHypothesis =>
      obtain ⟨⟨found, stripped⟩, later⟩ := List.forall_mem_cons.mp values
      rw [Assoc.keys, List.map_cons, Config.values, found]
      simp only [Option.getD_some, stripped, bind, Except.bind]
      rw [← Assoc.keys, inductionHypothesis later]
      rfl

theorem checkedSettings_of_holds {kind : DefinitionKind} {available required : List String}
    {entries : Assoc String} (isSection : config.document.hasSection (sectionOf kind name) = true)
    (noDefaults : config.document.hasSection kind.name = false)
    (holds : config.Holds (sectionOf kind name) entries)
    (complete : missing entries required = []) :
    config.checkedSettings kind name available required = .ok entries := by
  have merged : Assoc.merge (Assoc.merge [] []) entries = entries :=
    Assoc.merge_of_nodup holds.distinct
  simp only [checkedSettings, settings, isSection, noDefaults, holds.names,
    values_of_holds holds.values, bind, Except.bind, pure, Except.pure, merged, complete,
    Bool.not_true, Bool.false_eq_true, if_false, ne_eq, not_true_eq_false]

/-- The options of a section are plain values. -/
structure HasPlain (config : Config) (section_ : String) (entries : Assoc String) : Prop where
  names : config.document.optionNames section_ = entries.keys
  distinct : entries.keys.Nodup
  found : ∀ entry ∈ entries, config.document.raw? section_ entry.1 = some (some entry.2)
  plain : ∀ entry ∈ entries, IsPlainValue entry.2

theorem HasPlain.holds {section_ : String} {entries : Assoc String}
    (plain : config.HasPlain section_ entries) : config.Holds section_ entries where
  names := plain.names
  distinct := plain.distinct
  values entry member := ⟨Ini.value_of_plain (plain.found entry member) (plain.plain entry member),
    (plain.plain entry member).stripped⟩

theorem checkedSettings_of_plain {kind : DefinitionKind} {available required : List String}
    {entries : Assoc String} (isSection : config.document.hasSection (sectionOf kind name) = true)
    (noDefaults : config.document.hasSection kind.name = false)
    (plain : config.HasPlain (sectionOf kind name) entries)
    (complete : missing entries required = []) :
    config.checkedSettings kind name available required = .ok entries :=
  checkedSettings_of_holds isSection noDefaults plain.holds complete

end Config

end AssetBundler

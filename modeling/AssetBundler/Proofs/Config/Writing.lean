import AssetBundler.Proofs.Config.Lists
import AssetBundler.Proofs.Config.Plain
import AssetBundler.Proofs.Ini.Rendering

/-!
Definitions as fields. Switches are words, lists stand on one line with commas between their items,
and a definition is got back from its fields.
-/

namespace AssetBundler.Config

open Ini Outcome

/-- A value of its own: it is not empty, stands on one line and has no blanks at its ends. -/
structure IsText (text : String) : Prop extends IsValue text where
  filled : text ≠ ""

/-- An item of a list. -/
structure IsItem (item : String) : Prop extends IsText item where
  noComma : ',' ∉ item.toList

/-- The name of a definition. -/
structure IsName (name : String) : Prop extends IsItem name where
  noOpening : '[' ∉ name.toList
  noClosing : ']' ∉ name.toList

section Decidability

instance (text : List Char) : Decidable (Text.IsTrimmed text) :=
  decidable_of_iff _ Text.trim_eq_self

instance (text : String) : Decidable (IsInline text) :=
  decidable_of_iff ('\n' ∉ text.toList ∧ '\r' ∉ text.toList)
    ⟨fun ⟨noFeed, noReturn⟩ => ⟨noFeed, noReturn⟩, fun inline => ⟨inline.noFeed, inline.noReturn⟩⟩

instance (text : String) : Decidable (IsValue text) :=
  decidable_of_iff (IsInline text ∧ Text.IsTrimmed text.toList)
    ⟨fun ⟨inline, trimmed⟩ => ⟨inline, trimmed⟩,
      fun isValue => ⟨isValue.toIsInline, isValue.trimmed⟩⟩

instance (text : String) : Decidable (IsText text) :=
  decidable_of_iff (IsValue text ∧ text ≠ "")
    ⟨fun ⟨isValue, filled⟩ => ⟨isValue, filled⟩, fun isText => ⟨isText.toIsValue, isText.filled⟩⟩

instance (item : String) : Decidable (IsItem item) :=
  decidable_of_iff (IsText item ∧ ',' ∉ item.toList)
    ⟨fun ⟨isText, noComma⟩ => ⟨isText, noComma⟩, fun isItem => ⟨isItem.toIsText, isItem.noComma⟩⟩

instance (name : String) : Decidable (IsName name) :=
  decidable_of_iff (IsItem name ∧ '[' ∉ name.toList ∧ ']' ∉ name.toList)
    ⟨fun ⟨isItem, noOpening, noClosing⟩ => ⟨isItem, noOpening, noClosing⟩,
      fun named => ⟨named.toIsItem, named.noOpening, named.noClosing⟩⟩

end Decidability

def switchText (state : Bool) : String := if state then "yes" else "no"

def listText (items : List String) : String := ", ".intercalate items

def sourceFields (source : SourceDefinition) : Assoc String :=
  [("dialect", source.dialect), ("files", listText source.files),
    ("paths", listText source.paths), ("extension", source.extension.getD ""),
    ("namespace", source.scope), ("auto_require", switchText source.autoRequire),
    ("presets", listText source.presets), ("plugins", listText source.plugins),
    ("bare", switchText source.bare), ("autoprefix", switchText source.prefixing)]

def bundleFields (bundle : BundleDefinition) : Assoc String :=
  [("output", bundle.output), ("sources", listText (bundle.sources.map SourceDefinition.name)),
    ("sourcemaps", switchText bundle.sourceMaps), ("minify", switchText bundle.minify),
    ("gzip", switchText bundle.gzip), ("commonjs", switchText bundle.commonJs),
    ("polyfill", bundle.polyfill.getD "")]

/-- How definitions are written: with so many empty lines behind each of them, and with or without
the fields that are empty. -/
structure Layout where
  gap : Nat := 0
  keepsEmpty : String → Bool := fun _ => false

/-- The fields that are written. -/
def Layout.written (layout : Layout) (fields : Assoc String) : Assoc String :=
  fields.filter fun field => field.2 != "" || layout.keepsEmpty field.1

/-- A source that can be written. -/
structure IsWritableSource (source : SourceDefinition) : Prop where
  name : IsName source.name
  dialect : IsText source.dialect
  files : ∀ item ∈ source.files, IsItem item
  paths : ∀ item ∈ source.paths, IsItem item
  extension : ∀ extension ∈ source.extension, IsText extension
  scope : source.scope ≠ "" → IsText source.scope
  presets : ∀ item ∈ source.presets, IsItem item
  plugins : ∀ item ∈ source.plugins, IsItem item
  noOptions : source.prefixOptions = []

/-- A bundle that can be written. -/
structure IsWritableBundle (bundle : BundleDefinition) : Prop where
  name : IsName bundle.name
  output : IsText bundle.output
  fed : bundle.sources ≠ []
  noOptions : bundle.minifyOptions = []
  polyfill : ∀ path ∈ bundle.polyfill, IsText path

section Values

theorem isValue_empty : IsValue "" := ⟨⟨by decide, by decide⟩, ⟨nofun, nofun⟩⟩

theorem isValue_switchText (state : Bool) : IsValue (switchText state) := by
  cases state <;> exact ⟨⟨by decide, by decide⟩, Text.strip_eq_self.mp (by decide)⟩

theorem listText_cons_cons (first second : String) (rest : List String) :
    (listText (first :: second :: rest)).toList =
      first.toList ++ ',' :: ' ' :: (listText (second :: rest)).toList := by
  rw [listText, String.intercalate_cons_cons]
  simp [listText]

theorem listText_singleton (item : String) : listText [item] = item :=
  String.intercalate_singleton

theorem mem_listText {items : List String} {c : Char} (member : c ∈ (listText items).toList) :
    c = ',' ∨ c = ' ' ∨ ∃ item ∈ items, c ∈ item.toList := by
  induction items with
  | nil => cases member
  | cons first rest inductionHypothesis =>
      cases rest with
      | nil =>
          rw [listText_singleton] at member
          exact .inr (.inr ⟨first, List.mem_cons_self, member⟩)
      | cons second rest =>
          rw [listText_cons_cons, List.mem_append, List.mem_cons, List.mem_cons] at member
          rcases member with inFirst | isComma | isSpace | later
          · exact .inr (.inr ⟨first, List.mem_cons_self, inFirst⟩)
          · exact .inl isComma
          · exact .inr (.inl isSpace)
          · rcases inductionHypothesis later with isComma | isSpace | ⟨item, isItem, inItem⟩
            · exact .inl isComma
            · exact .inr (.inl isSpace)
            · exact .inr (.inr ⟨item, List.mem_cons_of_mem first isItem, inItem⟩)

theorem toList_ne_nil {text : String} (filled : text ≠ "") : text.toList ≠ [] :=
  fun empty => filled (String.toList_eq_nil_iff.mp empty)

theorem isTrimmed_listText {items : List String} (each : ∀ item ∈ items, IsItem item) :
    Text.IsTrimmed (listText items).toList ∧ (items ≠ [] → (listText items).toList ≠ []) := by
  induction items with
  | nil => exact ⟨⟨nofun, nofun⟩, fun filled => absurd rfl filled⟩
  | cons first rest inductionHypothesis =>
      obtain ⟨isItem, others⟩ := List.forall_mem_cons.mp each
      have filled := toList_ne_nil isItem.filled
      cases rest with
      | nil =>
          rw [listText_singleton]
          exact ⟨isItem.trimmed, fun _ => filled⟩
      | cons second rest =>
          obtain ⟨trimmed, some_⟩ := inductionHypothesis others
          have last := List.getLast?_eq_getLast_of_ne_nil (some_ (by simp))
          rw [listText_cons_cons]
          refine ⟨⟨?_, ?_⟩, fun _ => by simp⟩
          · intro c start
            rw [List.head?_append_of_ne_nil _ filled] at start
            exact isItem.trimmed.first c start
          · intro c ends
            refine trimmed.last c ?_
            simpa [List.getLast?_append, List.getLast?_cons, last] using ends

theorem isValue_listText {items : List String} (each : ∀ item ∈ items, IsItem item) :
    IsValue (listText items) where
  noFeed member := by
    rcases mem_listText member with isComma | isSpace | ⟨item, isItem, inItem⟩
    · cases isComma
    · cases isSpace
    · exact (each item isItem).noFeed inItem
  noReturn member := by
    rcases mem_listText member with isComma | isSpace | ⟨item, isItem, inItem⟩
    · cases isComma
    · cases isSpace
    · exact (each item isItem).noReturn inItem
  trimmed := (isTrimmed_listText each).1

theorem IsItem.isEntry {item : String} (isItem : IsItem item) : IsEntry item :=
  ⟨isItem.filled, isItem.trimmed, isItem.noComma, isItem.noFeed⟩

/-- The items of a list are got back from its text. -/
theorem splitList_listText {items : List String} (each : ∀ item ∈ items, IsItem item) :
    splitList (listText items) = items := by
  have separator : IsSeparator ", " := ⟨by decide +kernel, ',', by decide, .inl rfl⟩
  exact splitList_intercalate separator fun item member => (each item member).isEntry

theorem isValue_getD {text? : Option String} (each : ∀ text ∈ text?, IsText text) :
    IsValue (text?.getD "") := by
  cases text? with
  | none => exact isValue_empty
  | some text => exact (each text rfl).toIsValue

theorem nonEmpty?_getD {text? : Option String} (each : ∀ text ∈ text?, IsText text) :
    nonEmpty? (text?.getD "") = text? := by
  cases text? with
  | none => rfl
  | some text => exact if_neg (each text rfl).filled

end Values

section Definitions

variable {config : Config} {settings : Settings} {section_ : String}

/-- Fields that are left out have the empty value. -/
theorem setting_written (layout : Layout) {fields : Assoc String} (distinct : fields.keys.Nodup)
    (key : String) : setting (layout.written fields) key = setting fields key := by
  induction fields with
  | nil => rfl
  | cons field rest inductionHypothesis =>
      obtain ⟨isNew, others⟩ := List.nodup_cons.mp distinct
      have tail := inductionHypothesis others
      have absent : Assoc.find? rest field.1 = none := Assoc.find?_eq_none.mpr isNew
      simp only [setting, Layout.written] at tail ⊢
      rw [List.filter_cons]
      split
      · rw [Assoc.find?, Assoc.find?]
        split
        · rfl
        · exact tail
      · next left =>
        have empty : field.2 = "" := by
          simp only [Bool.or_eq_true, bne_iff_ne, not_or, not_not] at left
          exact left.1
        rw [tail, Assoc.find?]
        split
        · next same => rw [← same, absent, empty]; rfl
        · rfl

theorem parseBool_switchText {key : String} {state : Bool}
    (given : setting settings key = switchText state) :
    parseBool settings key section_ = .ok state := by
  have filled : switchText state ≠ "" := by cases state <;> decide
  have known : switchWords.lookup (Text.lower (switchText state)) = some state := by
    cases state <;> decide +kernel
  rw [parseBool, given, if_neg filled, known]

theorem parseOptions_empty {key : String} (given : setting settings key = "") :
    parseOptions settings key section_ = .ok [] := by
  rw [parseOptions, if_pos given]

/-- A source is read from its fields. -/
theorem source_of_fields {source : SourceDefinition} (writable : IsWritableSource source)
    (checked : config.checkedSettings .source source.name config.sources ["dialect"] = .ok settings)
    (same : ∀ key, setting settings key = setting (sourceFields source) key) :
    config.source source.name = .ok source := by
  have autoRequire : parseBool settings "auto_require" (sectionOf .source source.name) =
      .ok source.autoRequire := parseBool_switchText (same _)
  have bare : parseBool settings "bare" (sectionOf .source source.name) = .ok source.bare :=
    parseBool_switchText (same _)
  have prefixing : parseBool settings "autoprefix" (sectionOf .source source.name) =
      .ok source.prefixing := parseBool_switchText (same _)
  have noOptions : parseOptions settings "autoprefix_options" (sectionOf .source source.name) =
      .ok [] := parseOptions_empty (same _)
  have dialect : setting settings "dialect" = source.dialect := same _
  have files : splitList (setting settings "files") = source.files :=
    (congrArg splitList (same _)).trans (splitList_listText writable.files)
  have paths : splitList (setting settings "paths") = source.paths :=
    (congrArg splitList (same _)).trans (splitList_listText writable.paths)
  have presets : splitList (setting settings "presets") = source.presets :=
    (congrArg splitList (same _)).trans (splitList_listText writable.presets)
  have plugins : splitList (setting settings "plugins") = source.plugins :=
    (congrArg splitList (same _)).trans (splitList_listText writable.plugins)
  have extension : nonEmpty? (setting settings "extension") = source.extension :=
    (congrArg nonEmpty? (same _)).trans (nonEmpty?_getD writable.extension)
  have scope : setting settings "namespace" = source.scope := same _
  rw [Config.source, checked]
  simp only [bind, Except.bind, pure, Except.pure, autoRequire, bare, prefixing, noOptions, dialect,
    files, paths, presets, plugins, extension, scope]
  rw [← writable.noOptions]

/-- A bundle is read from its fields when its sources are. -/
theorem bundle_of_fields {bundle : BundleDefinition} (writable : IsWritableBundle bundle)
    (named : ∀ source ∈ bundle.sources, IsName source.name)
    (found : ∀ source ∈ bundle.sources, config.source source.name = .ok source)
    (checked : config.checkedSettings .bundle bundle.name config.bundles ["output", "sources"] =
      .ok settings)
    (same : ∀ key, setting settings key = setting (bundleFields bundle) key) :
    config.bundle bundle.name = .ok bundle := by
  have items : ∀ item ∈ bundle.sources.map SourceDefinition.name, IsItem item := by
    rw [List.forall_mem_map]
    exact fun source member => (named source member).toIsItem
  have sources : (splitList (setting settings "sources")).mapM config.source =
      .ok bundle.sources := by
    have listed : splitList (setting settings "sources") =
        bundle.sources.map SourceDefinition.name :=
      (congrArg splitList (same "sources")).trans (splitList_listText items)
    rw [listed, mapM_eq_ok, List.forall₂_map_left_iff, List.forall₂_same]
    exact found
  have sourceMaps : parseBool settings "sourcemaps" (sectionOf .bundle bundle.name) =
      .ok bundle.sourceMaps := parseBool_switchText (same _)
  have minify : parseBool settings "minify" (sectionOf .bundle bundle.name) = .ok bundle.minify :=
    parseBool_switchText (same _)
  have gzip : parseBool settings "gzip" (sectionOf .bundle bundle.name) = .ok bundle.gzip :=
    parseBool_switchText (same _)
  have commonJs : parseBool settings "commonjs" (sectionOf .bundle bundle.name) =
      .ok bundle.commonJs := parseBool_switchText (same _)
  have noOptions : parseOptions settings "minify_options" (sectionOf .bundle bundle.name) =
      .ok [] := parseOptions_empty (same _)
  have output : setting settings "output" = bundle.output := same _
  have polyfill : nonEmpty? (setting settings "polyfill") = bundle.polyfill :=
    (congrArg nonEmpty? (same _)).trans (nonEmpty?_getD writable.polyfill)
  rw [Config.bundle, checked]
  simp only [bind, Except.bind, pure, Except.pure] at sources ⊢
  simp only [sources, sourceMaps, minify, gzip, commonJs, noOptions, output, polyfill]
  rw [← writable.noOptions]

end Definitions

end AssetBundler.Config

import AssetBundler.Proofs.Config.Layers

/-!
Required values, and lists without items. A value that is blank counts as not given. Commas alone
are not blank, so they pass for a list of sources or of default bundles although they list nothing.
-/

namespace AssetBundler

open Outcome

/-- The names of a kind come from the sections that carry its mark. -/
theorem Ini.Document.map_namesOf (document : Ini.Document) (kind : String) :
    (document.namesOf kind).map (kind ++ ":" ++ ·) =
      document.sections.keys.filter fun name => (kind ++ ":").toList.isPrefixOf name.toList := by
  simp only [namesOf]
  induction Assoc.keys document.sections with
  | nil => rfl
  | cons name rest inductionHypothesis =>
      rw [List.filterMap_cons, List.filter_cons]
      by_cases marked : (kind ++ ":").toList.isPrefixOf name.toList = true
      · obtain ⟨short, shape⟩ := List.isPrefixOf_iff_prefix.mp marked
        have dropped : name.toList.drop (kind ++ ":").toList.length = short := by
          rw [← shape, List.drop_left]
        have whole : kind ++ ":" ++ String.ofList short = name := by
          rw [← String.toList_inj, String.toList_append, String.toList_ofList, shape]
        simp only [marked, if_true, List.map_cons, inductionHypothesis, dropped, whole]
      · simp only [marked, if_false, inductionHypothesis, Bool.false_eq_true]

namespace Config

variable {config : Config} {kind : DefinitionKind} {name key : String} {settings : Settings}

/-- A text that is not blank. -/
def IsFilled (text : String) : Prop := ∃ c ∈ text.toList, Text.isBlank c = false

section Settings

theorem isTrimmed_setting (given : config.settings kind name = .ok settings) (key : String) :
    Text.IsTrimmed (setting settings key).toList := by
  rw [setting]
  cases found : Assoc.find? settings key with
  | none => exact Text.isTrimmed_trim []
  | some value =>
      obtain ⟨place, shown, -, rfl⟩ := isDrawn_settings given key value found
      rw [Option.getD_some, Text.strip, String.toList_ofList]
      exact Text.isTrimmed_trim _

theorem isFilled_setting (given : config.settings kind name = .ok settings)
    (filled : setting settings key ≠ "") : IsFilled (setting settings key) := by
  by_contra blank
  apply filled
  have nothing : Text.trim (setting settings key).toList = [] := by
    rw [Text.trim_eq_nil]
    intro c member
    by_contra dark
    exact blank ⟨c, member, by simpa using dark⟩
  rw [Text.trim_eq_self.mpr (isTrimmed_setting given key)] at nothing
  exact String.toList_eq_nil_iff.mp nothing

theorem setting_eq_empty (given : config.settings kind name = .ok settings) (key : String) :
    setting settings key = "" ↔
      splitList (setting settings key) = [] ∧ ',' ∉ (setting settings key).toList := by
  rw [← strip_eq_empty, Text.strip_eq_self.mpr (isTrimmed_setting given key)]

theorem checkedSettings_eq_error {available required : List String}
    (isSection : config.document.hasSection (sectionOf kind name) = true)
    (given : config.settings kind name = .ok settings) (lacks : missing settings required ≠ []) :
    config.checkedSettings kind name available required =
      .error (.config (.missingFields kind name (missing settings required))) := by
  rw [checkedSettings, isSection, given]
  simp [bind, Except.bind, lacks, throw, throwThe, MonadExceptOf.throw]

theorem mem_missing {required : List String} :
    key ∈ missing settings required ↔ key ∈ required ∧ setting settings key = "" := by
  simp [missing, List.mem_filter]

theorem setting_ne_empty {available required : List String}
    (checked : config.checkedSettings kind name available required = .ok settings)
    (isRequired : key ∈ required) : setting settings key ≠ "" := by
  intro empty
  obtain ⟨-, -, complete⟩ := checkedSettings_eq_ok.mp checked
  have isMissing := mem_missing.mpr ⟨isRequired, empty⟩
  rw [complete] at isMissing
  cases isMissing

end Settings

section Definitions

/-- A bundle with its sources, whose switches and options are still to be read. -/
def bundleFrom (settings : Settings) (name : String) (sources : List SourceDefinition) :
    Except Failure BundleDefinition := do
  let section_ := sectionOf .bundle name
  let sourceMaps ← parseBool settings "sourcemaps" section_
  let minify ← parseBool settings "minify" section_
  let minifyOptions ← parseOptions settings "minify_options" section_
  let gzip ← parseBool settings "gzip" section_
  let commonJs ← parseBool settings "commonjs" section_
  return {
    name := name
    output := setting settings "output"
    sources := sources
    sourceMaps := sourceMaps
    minify := minify
    minifyOptions := minifyOptions
    gzip := gzip
    commonJs := commonJs
    polyfill := nonEmpty? (setting settings "polyfill") }

theorem bundle_eq_bind (config : Config) (name : String) :
    config.bundle name = (do
      let settings ← config.checkedSettings .bundle name config.bundles ["output", "sources"]
      let sources ← (splitList (setting settings "sources")).mapM config.source
      bundleFrom settings name sources) := rfl

/-- Commas are taken for a list of sources, and a blank text is not. -/
theorem bundle_of_no_items
    (isSection : config.document.hasSection (sectionOf .bundle name) = true)
    (given : config.settings .bundle name = .ok settings)
    (noItems : splitList (setting settings "sources") = []) :
    (',' ∉ (setting settings "sources").toList →
        ∃ fields, "sources" ∈ fields ∧
          config.bundle name = .error (.config (.missingFields .bundle name fields))) ∧
      (',' ∈ (setting settings "sources").toList →
        config.bundle name =
          if setting settings "output" = "" then
            .error (.config (.missingFields .bundle name ["output"]))
          else bundleFrom settings name []) := by
  have isEmpty := setting_eq_empty given "sources"
  have refused (lacks : missing settings ["output", "sources"] ≠ []) :
      config.bundle name = .error
        (.config (.missingFields .bundle name (missing settings ["output", "sources"]))) := by
    rw [bundle_eq_bind, checkedSettings_eq_error isSection given lacks]
    rfl
  constructor
  · intro noComma
    have isMissing : "sources" ∈ missing settings ["output", "sources"] :=
      mem_missing.mpr ⟨by decide, isEmpty.mpr ⟨noItems, noComma⟩⟩
    exact ⟨_, isMissing, refused (List.ne_nil_of_mem isMissing)⟩
  · intro comma
    have filled : setting settings "sources" ≠ "" := fun empty => (isEmpty.mp empty).2 comma
    split
    · next noOutput =>
      have lacks : missing settings ["output", "sources"] = ["output"] := by
        simp [missing, noOutput, filled]
      rw [← lacks]
      exact refused (by simp [lacks])
    · next output =>
      have complete : missing settings ["output", "sources"] = [] := by
        simp [missing, output, filled]
      rw [bundle_eq_bind, checkedSettings_eq_ok.mpr ⟨isSection, given, complete⟩]
      simp only [bind, Except.bind, noItems]
      rfl

theorem isFilled_dialect {source : SourceDefinition} (given : config.source name = .ok source) :
    IsFilled source.dialect := by
  obtain ⟨settings, checked, -, reads⟩ := exists_of_source given
  obtain ⟨-, drawn, -⟩ := checkedSettings_eq_ok.mp checked
  rw [reads.dialect]
  exact isFilled_setting drawn (setting_ne_empty checked (by decide))

/-- A bundle has the sources that are listed for it, and it has none if there are only commas. -/
structure IsFed (settings : Settings) (bundle : BundleDefinition) : Prop where
  output : IsFilled bundle.output
  sources : bundle.sources.map SourceDefinition.name = splitList (setting settings "sources")
  dialects : ∀ source ∈ bundle.sources, IsFilled source.dialect
  unfed : bundle.sources = [] → ',' ∈ (setting settings "sources").toList

theorem isFed_of_bundle {bundle : BundleDefinition} (given : config.bundle name = .ok bundle) :
    ∃ settings, config.settings .bundle name = .ok settings ∧ IsFed settings bundle := by
  obtain ⟨settings, checked, -, reads⟩ := exists_of_bundle given
  obtain ⟨-, drawn, -⟩ := checkedSettings_eq_ok.mp checked
  have each := mapM_eq_ok.mp reads.sources
  have named : bundle.sources.map SourceDefinition.name =
      splitList (setting settings "sources") := by
    rw [← List.forall₂_eq_eq_eq, List.forall₂_map_left_iff]
    refine (each.imp fun item source looked => ?_).flip
    obtain ⟨-, -, same, -⟩ := exists_of_source looked
    exact same
  rw [← named, List.forall₂_map_left_iff, List.forall₂_same] at each
  refine ⟨settings, drawn, ?_, named, fun source member => isFilled_dialect (each source member),
    ?_⟩
  · rw [reads.output]
    exact isFilled_setting drawn (setting_ne_empty checked (by decide))
  · intro unfed
    rw [unfed, List.map_nil] at named
    by_contra noComma
    have empty := (setting_eq_empty drawn "sources").mpr ⟨named.symm, noComma⟩
    exact setting_ne_empty checked (by decide) empty

theorem defaultBundles_of_value {shown : Option String}
    (isSection : config.document.hasSection generalSection = true)
    (read : config.document.value generalSection "default_bundles" = .ok shown) :
    config.defaultBundles =
      .ok (if splitList (shown.getD "") = [] ∧ ',' ∉ (shown.getD "").toList then config.bundles
        else splitList (shown.getD "")) := by
  rw [defaultBundles, isSection, read]
  simp only [← strip_eq_empty, if_true]
  by_cases empty : Text.strip (shown.getD "") = ""
  · rw [if_pos empty]
    simp [bind, Except.bind, pure, Except.pure, empty]
  · rw [if_neg empty]
    simp [bind, Except.bind, pure, Except.pure, empty, splitList_strip]

/-- A required value is never blank. Where the sources of a bundle list nothing they count as
missing, and where the default bundles list nothing all bundles are meant, unless there is a
comma. -/
theorem lookUps_required (config : Config) (name : String) :
    (∀ settings, config.document.hasSection (sectionOf .bundle name) = true →
        config.settings .bundle name = .ok settings →
        splitList (setting settings "sources") = [] →
        (',' ∉ (setting settings "sources").toList →
            ∃ fields, "sources" ∈ fields ∧
              config.bundle name = .error (.config (.missingFields .bundle name fields))) ∧
          (',' ∈ (setting settings "sources").toList →
            config.bundle name =
              if setting settings "output" = "" then
                .error (.config (.missingFields .bundle name ["output"]))
              else bundleFrom settings name [])) ∧
      (∀ bundle, config.bundle name = .ok bundle →
        ∃ settings, config.settings .bundle name = .ok settings ∧ IsFed settings bundle) ∧
      (∀ source, config.source name = .ok source → IsFilled source.dialect) ∧
      (∀ shown, config.document.hasSection generalSection = true →
        config.document.value generalSection "default_bundles" = .ok shown →
        config.defaultBundles =
          .ok (if splitList (shown.getD "") = [] ∧ ',' ∉ (shown.getD "").toList then
            config.bundles else splitList (shown.getD ""))) ∧
      (config.document.hasSection generalSection = false →
        config.defaultBundles = .ok config.bundles) ∧
      config.bundles.map (sectionOf .bundle) =
        config.document.sections.keys.filter fun place =>
          "bundle:".toList.isPrefixOf place.toList := by
  refine ⟨fun settings => bundle_of_no_items, fun bundle => isFed_of_bundle,
    fun source => isFilled_dialect, fun shown => defaultBundles_of_value, ?_, ?_⟩
  · intro isMissing
    rw [defaultBundles, isMissing]
    rfl
  · exact config.document.map_namesOf "bundle"

/-- Blank lists of sources and of default bundles. -/
def blankConfig : Config where
  document := {
    sections :=
      [("webbuild", [("default_bundles", some "")]),
        ("bundle:a", [("output", some "o"), ("sources", some " ")])] }

theorem lookUps_required_sample :
    (∃ fields, "sources" ∈ fields ∧
        blankConfig.bundle "a" = .error (.config (.missingFields .bundle "a" fields))) ∧
      blankConfig.defaultBundles = .ok ["a"] := by
  obtain ⟨refuses, -, -, defaults, -⟩ := lookUps_required blankConfig "a"
  have noItems := refuses [("output", "o"), ("sources", "")] (by decide +kernel) (by decide +kernel)
    (by decide +kernel)
  refine ⟨noItems.1 (by decide), ?_⟩
  rw [defaults (some "") (by decide +kernel) (by decide +kernel)]
  decide +kernel

/-- Lists that are commas. -/
def commaText : String :=
  "[webbuild]\ndefault_bundles = ,\n[bundle:a]\noutput = o\nsources = ,\n"

def commaConfig : Config where
  document := {
    sections :=
      [("webbuild", [("default_bundles", some ",")]),
        ("bundle:a", [("output", some "o"), ("sources", some ",")])] }

/-- A comma makes a bundle without sources, and no bundle is a default. -/
theorem lookUps_commas :
    Ini.ofBytes (Utf8.encode commaText) = .ok commaConfig.document ∧
      splitList "," = [] ∧
      (commaConfig.bundle "a").map (fun bundle => bundle.sources.length) = .ok 0 ∧
      commaConfig.bundles = ["a"] ∧ commaConfig.defaultBundles = .ok [] := by
  decide +kernel

end Definitions

end Config

end AssetBundler

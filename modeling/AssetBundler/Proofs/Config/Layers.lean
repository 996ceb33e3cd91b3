import AssetBundler.Proofs.Config.RoundTrip
import AssetBundler.Proofs.Config.Refusals

/-!
Layers of a configuration. An option of a bundle or a source is set in its own section, in the one
named by the kind alone, or in the section of defaults. The own section is read together with the
defaults, so these come before the section of the kind.
-/

namespace AssetBundler

open Outcome

theorem Ini.Document.mem_optionNames {document : Ini.Document} {section_ key : String} :
    key ∈ document.optionNames section_ ↔
      key ∈ Assoc.keys ((Assoc.find? document.sections section_).getD []) ∨
        key ∈ document.defaults.keys := by
  simp only [optionNames, List.mem_append, List.mem_filter, Bool.not_eq_true',
    List.contains_eq_mem, decide_eq_false_iff_not]
  tauto

namespace Config

variable {config : Config} {kind : DefinitionKind} {name key : String} {settings : Settings}

/-- Where an option can be set for a section of a kind. -/
inductive Layer where
  | named
  | general
  | defaults
  deriving DecidableEq, Repr

/-- The options that a layer sets itself. -/
def layerOptions (config : Config) (kind : DefinitionKind) (name : String) :
    Layer → Assoc (Option String)
  | .named => (Assoc.find? config.document.sections (sectionOf kind name)).getD []
  | .general => (Assoc.find? config.document.sections kind.name).getD []
  | .defaults => config.document.defaults

def Sets (config : Config) (kind : DefinitionKind) (name key : String) (layer : Layer) : Prop :=
  key ∈ (config.layerOptions kind name layer).keys

instance : DecidablePred (config.Sets kind name key) := fun layer =>
  inferInstanceAs (Decidable (key ∈ (config.layerOptions kind name layer).keys))

/-- The section that references without a section lead to. The defaults belong to all sections. -/
def Layer.place (kind : DefinitionKind) (name : String) : Layer → String
  | .general => kind.name
  | _ => sectionOf kind name

/-- What is shown of a value. Its references are replaced and the blanks around it are dropped, and
an option that is only named shows the empty text. -/
def Shows (config : Config) (place key : String) : Option String → String → Prop
  | none, text => text = ""
  | some raw, text => ∃ shown,
      Ini.substitute config.document Ini.depthLimit place key raw = .ok shown ∧
        text = Text.strip (String.ofList shown)

/-- The value is that of the first layer that sets the key, and there is none without a layer. -/
def Uses (config : Config) (kind : DefinitionKind) (name : String) (order : List Layer)
    (key : String) (value : Option String) : Prop :=
  match order.find? (config.Sets kind name key ·) with
  | none => value = none
  | some layer => ∃ raw text,
      Assoc.find? (config.layerOptions kind name layer) key = some raw ∧
        config.Shows (layer.place kind name) key raw text ∧ value = some text

/-- The defaults hide the section of the kind from a section that does not set the key itself. -/
def Hides (config : Config) (kind : DefinitionKind) (name key : String) : Prop :=
  ¬config.Sets kind name key .named ∧ config.Sets kind name key .general ∧
    config.Sets kind name key .defaults

section Values

variable {asked section_ : String} {names : List String}

/-- An option with the value that is read for it. -/
def entry (config : Config) (asked section_ name : String) : Except Failure (String × String) :=
  match config.document.value section_ name with
  | .ok value => .ok (name, Text.strip (value.getD ""))
  | .error fault => .error (Failure.ofReference asked fault)

theorem values_eq_mapM (config : Config) (asked section_ : String) (names : List String) :
    config.values asked section_ names = names.mapM (config.entry asked section_) := by
  induction names with
  | nil => rfl
  | cons first rest inductionHypothesis =>
      rw [values, List.mapM_cons, entry, ← inductionHypothesis]
      cases config.document.value section_ first <;> rfl

theorem exists_values :
    (∃ settings, config.values asked section_ names = .ok settings) ↔
      ∀ name ∈ names, ∃ shown, config.document.value section_ name = .ok shown := by
  rw [values_eq_mapM]
  have each (name : String) : (∃ value, config.entry asked section_ name = .ok value) ↔
      ∃ shown, config.document.value section_ name = .ok shown := by
    rw [entry]
    cases config.document.value section_ name <;> simp
  constructor
  · rintro ⟨settings, given⟩ name member
    exact (each name).mp (exists_of_mapM given name member)
  · intro shown
    exact exists_mapM fun name member => (each name).mpr (shown name member)

theorem keys_values (given : config.values asked section_ names = .ok settings) :
    Assoc.keys settings = names := by
  rw [values_eq_mapM, mapM_eq_ok] at given
  induction given with
  | nil => rfl
  | cons read _ inductionHypothesis =>
      rw [entry] at read
      split at read
      · cases read
        exact congrArg (_ :: ·) inductionHypothesis
      · cases read

/-- The values that are read are entered over those of a table. -/
theorem find?_merge_values (given : config.values asked section_ names = .ok settings)
    (table : Settings) (key : String) :
    (key ∈ names → ∃ shown, config.document.value section_ key = .ok shown ∧
        (Assoc.merge table settings).find? key = some (Text.strip (shown.getD ""))) ∧
      (key ∉ names → (Assoc.merge table settings).find? key = table.find? key) := by
  constructor
  · intro member
    obtain ⟨shown, found⟩ := exists_values.mp ⟨settings, given⟩ key member
    have agree : ∀ entry ∈ settings, entry.1 = key → entry.2 = Text.strip (shown.getD "") := by
      intro entry isEntry same
      obtain ⟨other, read, value⟩ := values_ok given entry isEntry
      rw [same, found] at read
      cases read
      exact value
    refine ⟨shown, found, ?_⟩
    rw [Assoc.find?_merge_of_agree agree, keys_values given, if_pos member]
  · intro absent
    have agree : ∀ entry ∈ settings, entry.1 = key → entry.2 = "" := by
      rintro entry isEntry rfl
      exact absurd (keys_values given ▸ List.mem_map_of_mem isEntry) absent
    rw [Assoc.find?_merge_of_agree agree, keys_values given, if_neg absent]

end Values

section Settings

/-- The options that the section of the kind is asked for, if there is such a section. -/
def generalNames (config : Config) (kind : DefinitionKind) : List String :=
  if config.document.hasSection kind.name then config.document.optionNames kind.name else []

theorem settings_eq_ok :
    config.settings kind name = .ok settings ↔
      ∃ general special,
        config.values (sectionOf kind name) kind.name (config.generalNames kind) = .ok general ∧
        config.values (sectionOf kind name) (sectionOf kind name)
          (config.document.optionNames (sectionOf kind name)) = .ok special ∧
        settings = Assoc.merge (Assoc.merge [] general) special := by
  have steps : config.settings kind name = (do
      let general ← config.values (sectionOf kind name) kind.name (config.generalNames kind)
      let special ← config.values (sectionOf kind name) (sectionOf kind name)
        (config.document.optionNames (sectionOf kind name))
      return Assoc.merge (Assoc.merge [] general) special) := by
    unfold Config.settings generalNames
    simp only
    split <;> rfl
  rw [steps]
  constructor
  · intro given
    obtain ⟨general, early, given⟩ := bind_eq_ok.mp given
    obtain ⟨special, late, given⟩ := bind_eq_ok.mp given
    cases given
    exact ⟨general, special, early, late, rfl⟩
  · rintro ⟨general, special, early, late, rfl⟩
    exact bind_eq_ok.mpr ⟨general, early, bind_eq_ok.mpr ⟨special, late, rfl⟩⟩

/-- The settings are given if all values in reach can be read, also those that are hidden. -/
theorem exists_settings :
    (∃ settings, config.settings kind name = .ok settings) ↔
      (∀ key ∈ config.generalNames kind,
        ∃ shown, config.document.value kind.name key = .ok shown) ∧
      ∀ key ∈ config.document.optionNames (sectionOf kind name),
        ∃ shown, config.document.value (sectionOf kind name) key = .ok shown := by
  constructor
  · rintro ⟨settings, given⟩
    obtain ⟨general, special, early, late, -⟩ := settings_eq_ok.mp given
    exact ⟨exists_values.mp ⟨general, early⟩, exists_values.mp ⟨special, late⟩⟩
  · rintro ⟨readsGeneral, readsSpecial⟩
    obtain ⟨general, early⟩ := exists_values.mpr readsGeneral
    obtain ⟨special, late⟩ := exists_values.mpr readsSpecial
    exact ⟨_, settings_eq_ok.mpr ⟨general, special, early, late, rfl⟩⟩

theorem checkedSettings_eq_ok {available required : List String} :
    config.checkedSettings kind name available required = .ok settings ↔
      config.document.hasSection (sectionOf kind name) = true ∧
        config.settings kind name = .ok settings ∧ missing settings required = [] := by
  unfold checkedSettings
  constructor
  · intro given
    split at given
    · cases given
    · next isSection =>
      obtain ⟨found, drawn, given⟩ := bind_eq_ok.mp given
      split at given
      · cases given
      · next complete =>
        cases given
        exact ⟨by simpa using isSection, drawn, by simpa using complete⟩
  · rintro ⟨isSection, drawn, complete⟩
    rw [isSection, drawn]
    simp [bind, Except.bind, complete, pure, Except.pure]

end Settings

section Uses

theorem sets_iff {layer : Layer} : config.Sets kind name key layer ↔
    ∃ raw, Assoc.find? (config.layerOptions kind name layer) key = some raw := by
  rw [Sets, ← Option.ne_none_iff_exists', ne_eq, Assoc.find?_eq_none, not_not]

theorem shows_of_value {place : String} {raw shown : Option String}
    (found : config.document.raw? place key = some raw)
    (read : config.document.value place key = .ok shown) :
    config.Shows place key raw (Text.strip (shown.getD "")) := by
  rw [Ini.Document.value, found] at read
  cases raw with
  | none =>
      cases read
      show Text.strip "" = ""
      decide
  | some raw =>
      obtain ⟨text, substituted, same⟩ := bind_eq_ok.mp read
      cases same
      exact ⟨text, substituted, rfl⟩

/-- The value that is read in the place of a layer is used if no layer before sets the key. -/
theorem uses_of_read {order : List Layer} {layer : Layer} {raw shown : Option String}
    (first : order.find? (config.Sets kind name key ·) = some layer)
    (set : Assoc.find? (config.layerOptions kind name layer) key = some raw)
    (seen : config.document.raw? (layer.place kind name) key =
      Assoc.find? (config.layerOptions kind name layer) key)
    (read : config.document.value (layer.place kind name) key = .ok shown) :
    config.Uses kind name order key (some (Text.strip (shown.getD ""))) := by
  rw [Uses, first]
  exact ⟨raw, _, set, shows_of_value (seen.trans set) read, rfl⟩

theorem missing_of_not_hasSection {place : String}
    (isMissing : ¬config.document.hasSection place = true) :
    config.document.sections.find? place = none := by
  simpa [Ini.Document.hasSection, Assoc.contains] using isMissing

/-- An option that a section does not set itself is that of the defaults. -/
theorem raw?_of_hasSection {place : String} (special : place ≠ Ini.defaultSection)
    (isSection : config.document.hasSection place = true) :
    config.document.raw? place key =
      (Assoc.find? ((config.document.sections.find? place).getD []) key <|>
        config.document.defaults.find? key) := by
  obtain ⟨options, found⟩ := Option.isSome_iff_exists.mp isSection
  simp only [Ini.Document.raw?, if_neg special, found, Option.getD_some]
  cases options.find? key <;> rfl

/-- The section of the kind is only asked for what it sets itself or what the defaults set. -/
theorem mem_generalNames (key name : String) (apart : ¬config.Sets kind name key .defaults) :
    key ∈ config.generalNames kind ↔ config.Sets kind name key .general := by
  rw [generalNames]
  split
  · rw [Ini.Document.mem_optionNames]
    exact or_iff_left apart
  · next isMissing => simp [Sets, layerOptions, missing_of_not_hasSection isMissing, Assoc.keys]

/-- What the section of the kind gives to a key that the defaults do not set. -/
theorem uses_general {general : Settings} {asked : String}
    (early : config.values asked kind.name (config.generalNames kind) = .ok general)
    (notNamed : ¬config.Sets kind name key .named)
    (notDefaults : ¬config.Sets kind name key .defaults) :
    config.Uses kind name [.named, .defaults, .general] key
      (Assoc.find? (Assoc.merge [] general) key) := by
  obtain ⟨inside, outside⟩ := find?_merge_values early [] key
  rw [mem_generalNames key name notDefaults] at inside outside
  by_cases inGeneral : config.Sets kind name key .general
  · obtain ⟨shown, read, value⟩ := inside inGeneral
    obtain ⟨raw, set⟩ := sets_iff.mp inGeneral
    have isSection : config.document.hasSection kind.name = true := by
      by_contra isMissing
      rw [layerOptions, missing_of_not_hasSection isMissing] at set
      cases set
    have seen : config.document.raw? kind.name key =
        (Assoc.find? (config.layerOptions kind name .general) key <|>
          config.document.defaults.find? key) :=
      raw?_of_hasSection (by cases kind <;> decide) isSection
    rw [set] at seen
    rw [value]
    exact uses_of_read (by simp [notNamed, notDefaults, inGeneral]) set (seen.trans set.symm) read
  · rw [outside inGeneral, Uses]
    simp [notNamed, notDefaults, inGeneral, Assoc.find?]

/-- The own section comes first, then the defaults, and the section of the kind is the last. -/
theorem uses_of_settings (isSection : config.document.hasSection (sectionOf kind name) = true)
    (given : config.settings kind name = .ok settings) (key : String) :
    config.Uses kind name [.named, .defaults, .general] key (Assoc.find? settings key) := by
  obtain ⟨general, special, early, late, rfl⟩ := settings_eq_ok.mp given
  have seen : config.document.raw? (sectionOf kind name) key =
      (Assoc.find? (config.layerOptions kind name .named) key <|>
        config.document.defaults.find? key) :=
    raw?_of_hasSection (sectionOf_ne_of_noColon (by decide)) isSection
  -- The own section lists the options of the defaults too, and it is entered last.
  have listed : key ∈ config.document.optionNames (sectionOf kind name) ↔
      config.Sets kind name key .named ∨ config.Sets kind name key .defaults :=
    Ini.Document.mem_optionNames
  obtain ⟨inside, outside⟩ := find?_merge_values late (Assoc.merge [] general) key
  by_cases inNamed : config.Sets kind name key .named
  · obtain ⟨shown, read, value⟩ := inside (listed.mpr (.inl inNamed))
    obtain ⟨raw, set⟩ := sets_iff.mp inNamed
    rw [set] at seen
    rw [value]
    exact uses_of_read (by simp [inNamed]) set (seen.trans set.symm) read
  · rw [Assoc.find?_eq_none.mpr inNamed] at seen
    by_cases inDefaults : config.Sets kind name key .defaults
    · obtain ⟨shown, read, value⟩ := inside (listed.mpr (.inr inDefaults))
      obtain ⟨raw, set⟩ := sets_iff.mp inDefaults
      rw [value]
      exact uses_of_read (by simp [inNamed, inDefaults]) set seen read
    · rw [outside fun member => (listed.mp member).elim inNamed inDefaults]
      exact uses_general early inNamed inDefaults

/-- The order of the last two layers matters only where the defaults hide the section of the
kind. -/
theorem uses_of_not_hides {value : Option String} (visible : ¬config.Hides kind name key)
    (uses : config.Uses kind name [.named, .defaults, .general] key value) :
    config.Uses kind name [.named, .general, .defaults] key value := by
  have same : [Layer.named, .general, .defaults].find? (config.Sets kind name key ·) =
      [Layer.named, .defaults, .general].find? (config.Sets kind name key ·) := by
    by_cases inNamed : config.Sets kind name key .named
    · simp [inNamed]
    · by_cases inGeneral : config.Sets kind name key .general
      · have notDefaults : ¬config.Sets kind name key .defaults :=
          fun inDefaults => visible ⟨inNamed, inGeneral, inDefaults⟩
        simp [inNamed, inGeneral, notDefaults]
      · by_cases inDefaults : config.Sets kind name key .defaults <;>
          simp [inNamed, inGeneral, inDefaults]
  rw [Uses, same]
  exact uses

end Uses

section Definitions

/-- Each setting is used from the first layer that sets it. The section of the kind comes before the
defaults unless they hide it. -/
structure IsLayered (config : Config) (kind : DefinitionKind) (name : String)
    (settings : Settings) : Prop where
  uses : ∀ key, config.Uses kind name [.named, .defaults, .general] key (Assoc.find? settings key)
  specific : ∀ key, ¬config.Hides kind name key →
    config.Uses kind name [.named, .general, .defaults] key (Assoc.find? settings key)

theorem isLayered_of_checkedSettings {available required : List String}
    (given : config.checkedSettings kind name available required = .ok settings) :
    config.IsLayered kind name settings := by
  obtain ⟨isSection, drawn, -⟩ := checkedSettings_eq_ok.mp given
  have uses := uses_of_settings isSection drawn
  exact ⟨uses, fun key visible => uses_of_not_hides visible (uses key)⟩

/-- What a bundle takes from its settings. -/
structure ReadsBundle (config : Config) (settings : Settings) (bundle : BundleDefinition) :
    Prop where
  output : bundle.output = setting settings "output"
  sources : (splitList (setting settings "sources")).mapM config.source = .ok bundle.sources
  sourceMaps : parseBool settings "sourcemaps" (sectionOf .bundle bundle.name) =
    .ok bundle.sourceMaps
  minify : parseBool settings "minify" (sectionOf .bundle bundle.name) = .ok bundle.minify
  minifyOptions : parseOptions settings "minify_options" (sectionOf .bundle bundle.name) =
    .ok bundle.minifyOptions
  gzip : parseBool settings "gzip" (sectionOf .bundle bundle.name) = .ok bundle.gzip
  commonJs : parseBool settings "commonjs" (sectionOf .bundle bundle.name) = .ok bundle.commonJs
  polyfill : bundle.polyfill = nonEmpty? (setting settings "polyfill")

/-- What a source takes from its settings. -/
structure ReadsSource (settings : Settings) (source : SourceDefinition) : Prop where
  dialect : source.dialect = setting settings "dialect"
  files : source.files = splitList (setting settings "files")
  paths : source.paths = splitList (setting settings "paths")
  extension : source.extension = nonEmpty? (setting settings "extension")
  scope : source.scope = setting settings "namespace"
  autoRequire : parseBool settings "auto_require" (sectionOf .source source.name) =
    .ok source.autoRequire
  presets : source.presets = splitList (setting settings "presets")
  plugins : source.plugins = splitList (setting settings "plugins")
  bare : parseBool settings "bare" (sectionOf .source source.name) = .ok source.bare
  prefixing : parseBool settings "autoprefix" (sectionOf .source source.name) =
    .ok source.prefixing
  prefixOptions : parseOptions settings "autoprefix_options" (sectionOf .source source.name) =
    .ok source.prefixOptions

theorem exists_of_bundle {bundle : BundleDefinition} (given : config.bundle name = .ok bundle) :
    ∃ settings,
      config.checkedSettings .bundle name config.bundles ["output", "sources"] = .ok settings ∧
        bundle.name = name ∧ config.ReadsBundle settings bundle := by
  unfold Config.bundle at given
  obtain ⟨settings, checked, given⟩ := bind_eq_ok.mp given
  obtain ⟨sources, readSources, given⟩ := bind_eq_ok.mp given
  obtain ⟨sourceMaps, readMaps, given⟩ := bind_eq_ok.mp given
  obtain ⟨minify, readMinify, given⟩ := bind_eq_ok.mp given
  obtain ⟨minifyOptions, readOptions, given⟩ := bind_eq_ok.mp given
  obtain ⟨gzip, readGzip, given⟩ := bind_eq_ok.mp given
  obtain ⟨commonJs, readCommonJs, given⟩ := bind_eq_ok.mp given
  cases given
  exact ⟨settings, checked, rfl, rfl, readSources, readMaps, readMinify, readOptions, readGzip,
    readCommonJs, rfl⟩

theorem exists_of_source {source : SourceDefinition} (given : config.source name = .ok source) :
    ∃ settings, config.checkedSettings .source name config.sources ["dialect"] = .ok settings ∧
      source.name = name ∧ ReadsSource settings source := by
  unfold Config.source at given
  obtain ⟨settings, checked, given⟩ := bind_eq_ok.mp given
  obtain ⟨autoRequire, readRequire, given⟩ := bind_eq_ok.mp given
  obtain ⟨bare, readBare, given⟩ := bind_eq_ok.mp given
  obtain ⟨prefixing, readPrefixing, given⟩ := bind_eq_ok.mp given
  obtain ⟨prefixOptions, readOptions, given⟩ := bind_eq_ok.mp given
  cases given
  exact ⟨settings, checked, rfl, rfl, rfl, rfl, rfl, rfl, readRequire, rfl, rfl, readBare,
    readPrefixing, readOptions⟩

theorem readsBundle_of_bundle {bundle : BundleDefinition}
    (given : config.bundle name = .ok bundle) :
    ∃ settings, config.IsLayered .bundle name settings ∧ bundle.name = name ∧
      config.ReadsBundle settings bundle := by
  obtain ⟨settings, checked, named, reads⟩ := exists_of_bundle given
  exact ⟨settings, isLayered_of_checkedSettings checked, named, reads⟩

theorem readsSource_of_source {source : SourceDefinition}
    (given : config.source name = .ok source) :
    ∃ settings, config.IsLayered .source name settings ∧ source.name = name ∧
      ReadsSource settings source := by
  obtain ⟨settings, checked, named, reads⟩ := exists_of_source given
  exact ⟨settings, isLayered_of_checkedSettings checked, named, reads⟩

/-- A bundle and a source take each value from the first layer that sets its key. The settings are
given if all values in reach can be read, also those that are not used. -/
theorem lookUps_layered (config : Config) (name : String) :
    (∀ bundle, config.bundle name = .ok bundle →
        ∃ settings, config.IsLayered .bundle name settings ∧ bundle.name = name ∧
          config.ReadsBundle settings bundle) ∧
      (∀ source, config.source name = .ok source →
        ∃ settings, config.IsLayered .source name settings ∧ source.name = name ∧
          ReadsSource settings source) ∧
      ∀ kind, (∃ settings, config.settings kind name = .ok settings) ↔
        (∀ key ∈ config.generalNames kind,
          ∃ shown, config.document.value kind.name key = .ok shown) ∧
        ∀ key ∈ config.document.optionNames (sectionOf kind name),
          ∃ shown, config.document.value (sectionOf kind name) key = .ok shown :=
  ⟨fun _ => readsBundle_of_bundle, fun _ => readsSource_of_source, fun _ => exists_settings⟩

/-- A configuration in which each layer sets something. -/
def layeredText : String :=
  "[DEFAULT]\nminify = no\n[bundle]\nminify = yes\ngzip = yes\n" ++
    "[bundle:app]\noutput = app.js\nsources = main\n[source:main]\ndialect = js\n"

def layeredConfig : Config where
  document := {
    defaults := [("minify", some "no")]
    sections :=
      [("bundle", [("minify", some "yes"), ("gzip", some "yes")]),
        ("bundle:app", [("output", some "app.js"), ("sources", some "main")]),
        ("source:main", [("dialect", some "js")])] }

/-- The section of the kind gives a switch that no other layer sets. -/
theorem lookUps_layered_sample :
    ∃ bundle settings, layeredConfig.bundle "app" = .ok bundle ∧ bundle.gzip = true ∧
      layeredConfig.IsLayered .bundle "app" settings ∧
      layeredConfig.ReadsBundle settings bundle := by
  have read : (layeredConfig.bundle "app").map BundleDefinition.gzip = .ok true := by
    decide +kernel
  cases given : layeredConfig.bundle "app" with
  | error failure =>
      rw [given] at read
      cases read
  | ok bundle =>
      rw [given] at read
      obtain ⟨settings, layered, -, reads⟩ := (lookUps_layered layeredConfig "app").1 bundle given
      exact ⟨bundle, settings, rfl, Except.ok.inj read, layered, reads⟩

/-- A switch of the section of the kind is lost to the defaults. -/
theorem lookUps_hidden :
    Ini.ofBytes (Utf8.encode layeredText) = .ok layeredConfig.document ∧
      (layeredConfig.bundle "app").map BundleDefinition.minify = .ok false ∧
      ∃ settings, layeredConfig.settings .bundle "app" = .ok settings ∧
        ¬layeredConfig.Uses .bundle "app" [.named, .general, .defaults] "minify"
          (Assoc.find? settings "minify") := by
  refine ⟨by decide +kernel, by decide +kernel,
    [("minify", "no"), ("gzip", "yes"), ("output", "app.js"), ("sources", "main")],
    by decide +kernel, ?_⟩
  have written : Ini.substitute layeredConfig.document Ini.depthLimit "bundle" "minify" "yes" =
      .ok ['y', 'e', 's'] := by
    decide +kernel
  rintro ⟨raw, text, set, shows, value⟩
  cases set
  obtain ⟨shown, substituted, rfl⟩ := shows
  cases written.symm.trans substituted
  exact absurd value (by decide)

end Definitions

end Config

end AssetBundler

import AssetBundler.Proofs.Config.Plain
import AssetBundler.Proofs.Ini.References
import AssetBundler.Proofs.Json.Limits
import AssetBundler.Proofs.Text.Blank

/-!
Why nothing is found in a configuration. The refusal is a fault of the configuration, unless a value
refers to an option without a value, or options are beyond the limits of their reader.
-/

namespace AssetBundler

open Outcome

namespace Config

/-- The settings that are options. -/
def optionKeys : List String := ["minify_options", "autoprefix_options"]

/-- Options in a configuration that their reader does not take. -/
def HasExcess (config : Config) : Prop :=
  ∃ section_ key value, key ∈ optionKeys ∧ config.document.value section_ key = .ok (some value) ∧
    Json.Exceeds Json.nestingLimit (Text.strip value).toList

/-- A failure is a fault of the configuration, or it has one of two causes in the document. -/
def Explains (config : Config) (failure : Failure) : Prop :=
  (∃ fault, failure = .config fault) ∨
    (failure = .valuelessReference ∧ ∃ place, config.document.LeadsNowhere place) ∨
      (∃ fault, failure = .jsonLimit fault ∧ fault.isLimit = true) ∧ config.HasExcess

variable {config : Config}

theorem explains_config (fault : ConfigFault) : config.Explains (.config fault) :=
  .inl ⟨fault, rfl⟩

theorem explains_reference {section_ option asked : String} {fault : Ini.ReferenceFault}
    (failed : config.document.value section_ option = .error fault) :
    config.Explains (Failure.ofReference asked fault) := by
  cases fault with
  | valueless => exact .inr (.inl ⟨rfl, _, Ini.leadsNowhere_of_value failed⟩)
  | _ => exact explains_config _

/-- A setting that is given is the value of an option in some section. -/
def IsDrawn (config : Config) (settings : Settings) : Prop :=
  ∀ key value, Assoc.find? settings key = some value →
    ∃ section_ shown, config.document.value section_ key = .ok shown ∧
      value = Text.strip (shown.getD "")

theorem values_ok {asked section_ : String} {names : List String} {settings : Settings}
    (given : config.values asked section_ names = .ok settings) :
    ∀ entry ∈ settings, ∃ shown, config.document.value section_ entry.1 = .ok shown ∧
      entry.2 = Text.strip (shown.getD "") := by
  induction names generalizing settings with
  | nil =>
      cases given
      simp
  | cons name rest inductionHypothesis =>
      rw [values] at given
      split at given
      · next shown found =>
        obtain ⟨value, first, given⟩ := bind_eq_ok.mp given
        obtain ⟨others, later, given⟩ := bind_eq_ok.mp given
        cases first
        cases given
        exact List.forall_mem_cons.mpr ⟨⟨shown, found, rfl⟩, inductionHypothesis later⟩
      · cases given

theorem failsOnly_values_explains (asked section_ : String) (names : List String) :
    FailsOnly config.Explains (config.values asked section_ names) := by
  induction names with
  | nil => exact FailsOnly.ok []
  | cons name rest inductionHypothesis =>
      rw [values]
      split
      · exact inductionHypothesis.bind fun others => FailsOnly.ok _
      · next failed => exact FailsOnly.error (explains_reference failed)

theorem failsOnly_settings_explains (kind : DefinitionKind) (name : String) :
    FailsOnly config.Explains (config.settings kind name) := by
  unfold settings
  simp only
  split
  · exact (failsOnly_values_explains _ _ _).bind fun _ =>
      (failsOnly_values_explains _ _ _).bind fun _ => FailsOnly.ok _
  · exact (failsOnly_values_explains _ _ _).bind fun _ => FailsOnly.ok _

theorem isDrawn_settings {kind : DefinitionKind} {name : String} {settings : Settings}
    (given : config.settings kind name = .ok settings) : config.IsDrawn settings := by
  have drawn {general special : Settings} {section_ other asked : String}
      {names others : List String}
      (first : general = [] ∨ config.values asked section_ names = .ok general)
      (second : config.values asked other others = .ok special) :
      config.IsDrawn (Assoc.merge (Assoc.merge [] general) special) := by
    intro key value found
    rcases Assoc.find?_merge found with isSpecial | isGeneral
    · exact ⟨other, values_ok second _ isSpecial⟩
    · rcases Assoc.find?_merge isGeneral with isGeneral | isNone
      · rcases first with rfl | first
        · cases isGeneral
        · exact ⟨section_, values_ok first _ isGeneral⟩
      · cases isNone
  unfold Config.settings at given
  simp only at given
  split at given
  · obtain ⟨general, first, given⟩ := bind_eq_ok.mp given
    obtain ⟨special, second, given⟩ := bind_eq_ok.mp given
    cases given
    exact drawn (.inr first) second
  · obtain ⟨general, first, given⟩ := bind_eq_ok.mp given
    obtain ⟨special, second, given⟩ := bind_eq_ok.mp given
    cases first
    cases given
    exact @drawn _ _ "" _ _ [] _ (.inl rfl) second

/-- The settings that are checked are drawn from the document. -/
theorem checkedSettings_explains (config : Config) (kind : DefinitionKind) (name : String)
    (available required : List String) :
    FailsOnly config.Explains (config.checkedSettings kind name available required) ∧
      ∀ settings, config.checkedSettings kind name available required = .ok settings →
        config.IsDrawn settings := by
  unfold checkedSettings
  constructor
  · split
    · exact FailsOnly.error (explains_config _)
    · refine (failsOnly_settings_explains kind name).bind fun settings => ?_
      split
      · exact FailsOnly.error (explains_config _)
      · exact FailsOnly.ok settings
  · intro settings given
    split at given
    · cases given
    · obtain ⟨found, drawn, given⟩ := bind_eq_ok.mp given
      split at given
      · cases given
      · cases given
        exact isDrawn_settings drawn

theorem failsOnly_parseBool_explains (settings : Settings) (key section_ : String) :
    FailsOnly config.Explains (parseBool settings key section_) := by
  simp only [parseBool]
  split
  · exact FailsOnly.ok false
  · split
    · exact FailsOnly.ok _
    · exact FailsOnly.error (explains_config _)

/-- A setting with a value comes from an option with a value. -/
theorem drawn_setting {settings : Settings} (drawn : config.IsDrawn settings) {key : String}
    (filled : setting settings key ≠ "") :
    ∃ section_ value, config.document.value section_ key = .ok (some value) ∧
      setting settings key = Text.strip value := by
  unfold setting at filled ⊢
  cases given : Assoc.find? settings key with
  | none =>
      rw [given] at filled
      exact absurd rfl filled
  | some text =>
      rw [given] at filled
      obtain ⟨section_, shown, found, rfl⟩ := drawn key text given
      cases shown with
      | none => exact absurd (by decide) filled
      | some value => exact ⟨section_, value, found, rfl⟩

theorem failsOnly_parseOptions_explains {settings : Settings} (drawn : config.IsDrawn settings)
    {key : String} (isOptions : key ∈ optionKeys) (section_ : String) :
    FailsOnly config.Explains (parseOptions settings key section_) := by
  simp only [parseOptions]
  split
  · exact FailsOnly.ok []
  · next filled =>
    split
    · exact FailsOnly.ok _
    · exact FailsOnly.error (explains_config _)
    · next error refused =>
      split
      · next isLimit =>
        refine FailsOnly.error (.inr (.inr ⟨⟨error.fault, rfl, isLimit⟩, ?_⟩))
        obtain ⟨place, value, found, same⟩ := drawn_setting drawn filled
        rw [same] at refused
        exact ⟨place, key, value, isOptions, found, Json.exceeds_of_load refused isLimit⟩
      · exact FailsOnly.error (explains_config _)

theorem failsOnly_source_explains (name : String) :
    FailsOnly config.Explains (config.source name) := by
  obtain ⟨fails, drawn⟩ := config.checkedSettings_explains .source name config.sources ["dialect"]
  unfold source
  cases given : config.checkedSettings .source name config.sources ["dialect"] with
  | error failure => exact FailsOnly.error (fails failure given)
  | ok settings =>
      refine (failsOnly_parseBool_explains _ _ _).bind fun _ =>
        (failsOnly_parseBool_explains _ _ _).bind fun _ =>
          (failsOnly_parseBool_explains _ _ _).bind fun _ =>
            (failsOnly_parseOptions_explains (drawn settings given) ?_ _).bind fun _ =>
              FailsOnly.ok _
      simp [optionKeys]

theorem failsOnly_bundle_explains (name : String) :
    FailsOnly config.Explains (config.bundle name) := by
  obtain ⟨fails, drawn⟩ :=
    config.checkedSettings_explains .bundle name config.bundles ["output", "sources"]
  unfold bundle
  cases given : config.checkedSettings .bundle name config.bundles ["output", "sources"] with
  | error failure => exact FailsOnly.error (fails failure given)
  | ok settings =>
      refine (FailsOnly.mapM fun source _ => failsOnly_source_explains source).bind fun _ =>
        (failsOnly_parseBool_explains _ _ _).bind fun _ =>
          (failsOnly_parseBool_explains _ _ _).bind fun _ =>
            (failsOnly_parseOptions_explains (drawn settings given) ?_ _).bind fun _ =>
              (failsOnly_parseBool_explains _ _ _).bind fun _ =>
                (failsOnly_parseBool_explains _ _ _).bind fun _ => FailsOnly.ok _
      simp [optionKeys]

theorem failsOnly_defaultBundles_explains : FailsOnly config.Explains config.defaultBundles := by
  unfold defaultBundles
  simp only
  split
  · split
    · simp only [bind, Except.bind]
      split
      · exact FailsOnly.ok _
      · exact FailsOnly.ok _
    · next failed => exact FailsOnly.error (explains_reference failed)
  · exact FailsOnly.ok _

/-- A look-up gives a definition, or it is refused for a fault of the configuration, a reference
that leads nowhere, or options that their reader does not take. -/
theorem lookUps_explained (config : Config) (name : String) :
    FailsOnly config.Explains (config.bundle name) ∧
      FailsOnly config.Explains (config.source name) ∧
      FailsOnly config.Explains config.defaultBundles :=
  ⟨failsOnly_bundle_explains name, failsOnly_source_explains name,
    failsOnly_defaultBundles_explains⟩

section Sample

/-- A bundle whose output refers to an option without a value. -/
def nowhereText : String := "[bundle:a]\nk\noutput = ${k}\nsources = s\n"

/-- A whole number of so many digits. -/
def ones (digits : Nat) : String := String.ofList (List.replicate digits '1')

/-- A source with a number in the place of options. -/
def numberConfig (digits : Nat) : Config where
  document := {
    sections := [("source:s",
      [("dialect", some "css"), ("autoprefix_options", some (ones digits))])] }

theorem isPlainValue_ones (digits : Nat) : IsPlainValue (ones digits) where
  noReference := by
    intro member
    rw [ones, String.toList_ofList] at member
    cases List.eq_of_mem_replicate member
  stripped := by
    rw [Text.strip_eq_self, ones, String.toList_ofList]
    constructor
    · intro c first
      cases List.eq_of_mem_replicate (List.mem_of_mem_head? first)
      rfl
    · intro c last
      cases List.eq_of_mem_replicate (List.mem_of_mem_getLast? last)
      rfl

theorem checkedSettings_numberConfig (digits : Nat) :
    (numberConfig digits).checkedSettings .source "s" (numberConfig digits).sources ["dialect"] =
      .ok [("dialect", "css"), ("autoprefix_options", ones digits)] := by
  have dialect : IsPlainValue "css" := ⟨by decide, by decide⟩
  have distinct : ["dialect", "autoprefix_options"].Nodup := by decide
  refine checkedSettings_of_plain rfl rfl ⟨rfl, distinct, ?_, ?_⟩ rfl
  · simp only [List.forall_mem_cons]
    exact ⟨rfl, rfl, nofun⟩
  · simp only [List.forall_mem_cons]
    exact ⟨dialect, isPlainValue_ones digits, nofun⟩

/-- A number of too many digits is refused beyond the limits of the reader. -/
theorem source_numberConfig {more : Nat} (long : 4300 ≤ more) :
    (numberConfig (more + 1)).source "s" = .error (.jsonLimit (.integerTooLong (more + 1))) := by
  have all : ∀ c ∈ '1' :: List.replicate more '1', Json.isDigit c = true := by
    intro c member
    cases List.eq_of_mem_replicate (n := more + 1) member
    rfl
  have length : ('1' :: List.replicate more '1').length = more + 1 := by simp
  obtain ⟨error, parsed, fault⟩ := Json.load_of_digits (by decide) all (by omega)
  rw [length] at fault
  have number : ones (more + 1) = String.ofList ('1' :: List.replicate more '1') := rfl
  have filled : ones (more + 1) ≠ "" := by
    rw [number, ne_eq, ← String.toList_inj, String.toList_ofList]
    simp
  have refused (settings : Settings)
      (isNumber : setting settings "autoprefix_options" = ones (more + 1)) :
      parseOptions settings "autoprefix_options" "source:s" =
        .error (.jsonLimit (.integerTooLong (more + 1))) := by
    rw [parseOptions, isNumber, if_neg filled, number, parsed]
    simp only [fault]
    rfl
  have off (settings : Settings) (key : String) (isOff : setting settings key = "") :
      parseBool settings key "source:s" = .ok false := by
    rw [parseBool, if_pos isOff]
  have named : sectionOf .source "s" = "source:s" := rfl
  rw [source, checkedSettings_numberConfig]
  simp only [bind, Except.bind, named]
  rw [off _ "auto_require" rfl, off _ "bare" rfl, off _ "autoprefix" rfl, refused _ rfl]

/-- Neither of the two causes is a fault of the configuration. -/
theorem lookUps_escape :
    (∃ document, Ini.ofBytes (Utf8.encode nowhereText) = .ok document ∧
        (⟨document⟩ : Config).bundle "a" = .error .valuelessReference) ∧
      (numberConfig 4301).source "s" = .error (.jsonLimit (.integerTooLong 4301)) := by
  refine ⟨⟨⟨[], [("bundle:a", [("k", none), ("output", some "${k}"), ("sources", some "s")])]⟩,
    by decide +kernel, ?_⟩, source_numberConfig (Nat.le_refl 4300)⟩
  have refused : (⟨⟨[], [("bundle:a", [("k", none), ("output", some "${k}"),
      ("sources", some "s")])]⟩⟩ : Config).checkedSettings .bundle "a" ["a"]
        ["output", "sources"] = .error .valuelessReference := by
    decide +kernel
  exact congrArg (· >>= _) refused

end Sample

end Config

end AssetBundler

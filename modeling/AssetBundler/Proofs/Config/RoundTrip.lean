import AssetBundler.Proofs.Config.Loading
import AssetBundler.Proofs.Config.Writing

/-!
Definitions as the text of a configuration. What is written is looked up as it was.
-/

namespace AssetBundler.Config

open Ini

/-- The definition of a source or of a bundle. -/
inductive Definition where
  | source (source : SourceDefinition)
  | bundle (bundle : BundleDefinition)

namespace Definition

def kind : Definition → DefinitionKind
  | .source _ => .source
  | .bundle _ => .bundle

def name : Definition → String
  | .source given => given.name
  | .bundle given => given.name

def fields : Definition → Assoc String
  | .source given => sourceFields given
  | .bundle given => bundleFields given

def block (layout : Layout) (definition : Definition) : Block where
  name := sectionOf definition.kind definition.name
  fields := layout.written definition.fields

def source? : Definition → Option SourceDefinition
  | .source given => some given
  | .bundle _ => none

def bundle? : Definition → Option BundleDefinition
  | .source _ => none
  | .bundle given => some given

end Definition

/-- The text of a configuration with these definitions. -/
def render (layout : Layout) (definitions : List Definition) : String :=
  renderBlocks layout.gap (definitions.map (Definition.block layout))

def sourcesOf (definitions : List Definition) : List SourceDefinition :=
  definitions.filterMap Definition.source?

def bundlesOf (definitions : List Definition) : List BundleDefinition :=
  definitions.filterMap Definition.bundle?

/-- Definitions with distinct names, in which each bundle is fed by sources among them. -/
structure AreWritable (definitions : List Definition) : Prop where
  sources : ∀ source ∈ sourcesOf definitions, IsWritableSource source
  bundles : ∀ bundle ∈ bundlesOf definitions, IsWritableBundle bundle
  sourceNames : ((sourcesOf definitions).map SourceDefinition.name).Nodup
  bundleNames : ((bundlesOf definitions).map BundleDefinition.name).Nodup
  known : ∀ bundle ∈ bundlesOf definitions, ∀ source ∈ bundle.sources,
    source ∈ sourcesOf definitions

section Documents

variable {definitions : List Definition} {layout : Layout} {definition : Definition}

theorem toList_sectionOf (kind : DefinitionKind) (name : String) :
    (sectionOf kind name).toList = kind.name.toList ++ ':' :: name.toList := by
  simp [sectionOf]

theorem sectionOf_inj {kind other : DefinitionKind} {name otherName : String} :
    sectionOf kind name = sectionOf other otherName ↔ kind = other ∧ name = otherName := by
  constructor
  · intro same
    rw [← String.toList_inj, toList_sectionOf, toList_sectionOf] at same
    cases kind <;> cases other
    · exact ⟨rfl, String.toList_inj.mp (List.cons.inj (List.append_cancel_left same)).2⟩
    · exact absurd (List.cons.inj same).1 (by decide)
    · exact absurd (List.cons.inj same).1 (by decide)
    · exact ⟨rfl, String.toList_inj.mp (List.cons.inj (List.append_cancel_left same)).2⟩
  · rintro ⟨rfl, rfl⟩
    rfl

theorem sectionOf_ne_of_noColon {kind : DefinitionKind} {name other : String}
    (noColon : ':' ∉ other.toList) : sectionOf kind name ≠ other := by
  rintro rfl
  rw [toList_sectionOf] at noColon
  simp at noColon

theorem isKey_of_fields (definition : Definition) : ∀ key ∈ definition.fields.keys, IsKey key := by
  have small (keys : List String) (each : ∀ key ∈ keys, key ≠ "" ∧
      key.toList.all (fun c => decide (('a' ≤ c ∧ c ≤ 'z') ∨ c = '_')) = true ∧
      Text.lower key = key) : ∀ key ∈ keys, IsKey key := fun key member =>
    ⟨(each key member).1, fun c inside => of_decide_eq_true
      (List.all_eq_true.mp (each key member).2.1 c inside), (each key member).2.2⟩
  cases definition with
  | source given =>
      exact small ["dialect", "files", "paths", "extension", "namespace", "auto_require", "presets",
        "plugins", "bare", "autoprefix"] (by decide +kernel)
  | bundle given =>
      exact small ["output", "sources", "sourcemaps", "minify", "gzip", "commonjs", "polyfill"]
        (by decide +kernel)

theorem nodup_fields (definition : Definition) : definition.fields.keys.Nodup := by
  cases definition with
  | source given =>
      have distinct : ["dialect", "files", "paths", "extension", "namespace", "auto_require",
        "presets", "plugins", "bare", "autoprefix"].Nodup := by decide +kernel
      exact distinct
  | bundle given =>
      have distinct : ["output", "sources", "sourcemaps", "minify", "gzip", "commonjs",
        "polyfill"].Nodup := by decide +kernel
      exact distinct

/-- A definition that can be written. -/
def Definition.IsWritable (definitions : List Definition) : Definition → Prop
  | .source given => IsWritableSource given
  | .bundle given => IsWritableBundle given ∧ ∀ source ∈ given.sources,
      source ∈ sourcesOf definitions ∧ IsName source.name

theorem AreWritable.each (writable : AreWritable definitions) (member : definition ∈ definitions) :
    definition.IsWritable definitions := by
  cases definition with
  | source given => exact writable.sources given (List.mem_filterMap.mpr ⟨_, member, rfl⟩)
  | bundle given =>
      have isBundle : given ∈ bundlesOf definitions := List.mem_filterMap.mpr ⟨_, member, rfl⟩
      refine ⟨writable.bundles given isBundle, fun source isFed => ?_⟩
      have isSource := writable.known given isBundle source isFed
      exact ⟨isSource, (writable.sources source isSource).name⟩

theorem isValue_of_fields (writable : definition.IsWritable definitions) :
    ∀ field ∈ definition.fields, IsValue field.2 := by
  cases definition with
  | source given =>
      have scope : IsValue given.scope := by
        by_cases empty : given.scope = ""
        · rw [empty]
          exact isValue_empty
        · exact (IsWritableSource.scope writable empty).toIsValue
      simp only [Definition.fields, sourceFields, List.forall_mem_cons]
      exact ⟨writable.dialect.toIsValue, isValue_listText writable.files,
        isValue_listText writable.paths, isValue_getD writable.extension, scope,
        isValue_switchText _, isValue_listText writable.presets, isValue_listText writable.plugins,
        isValue_switchText _, isValue_switchText _, nofun⟩
  | bundle given =>
      obtain ⟨isBundle, fed⟩ := writable
      have items : ∀ item ∈ given.sources.map SourceDefinition.name, IsItem item := by
        rw [List.forall_mem_map]
        exact fun source member => (fed source member).2.toIsItem
      simp only [Definition.fields, bundleFields, List.forall_mem_cons]
      exact ⟨isBundle.output.toIsValue, isValue_listText items, isValue_switchText _,
        isValue_switchText _, isValue_switchText _, isValue_switchText _,
        isValue_getD isBundle.polyfill, nofun⟩

theorem isName_of_isWritable (writable : definition.IsWritable definitions) :
    IsName definition.name := by
  cases definition with
  | source given => exact IsWritableSource.name writable
  | bundle given => exact writable.1.name

theorem isWritable_block (writable : definition.IsWritable definitions) :
    (definition.block layout).IsWritable where
  inline := by
    have named := isName_of_isWritable writable
    constructor
    · rw [Definition.block, toList_sectionOf]
      cases definition.kind <;> simp [DefinitionKind.name, named.noFeed]
    · rw [Definition.block, toList_sectionOf]
      cases definition.kind <;> simp [DefinitionKind.name, named.noReturn]
  filled := sectionOf_ne_of_noColon (by decide)
  special := sectionOf_ne_of_noColon (by decide)
  keys field member := isKey_of_fields definition field.1
    (List.mem_map_of_mem (List.mem_of_mem_filter member))
  values field member := isValue_of_fields writable field (List.mem_of_mem_filter member)
  distinct := (List.filter_sublist.map Prod.fst).nodup (nodup_fields definition)

theorem sourceName_of_kind (member : definition ∈ definitions)
    (isSource : definition.kind = .source) :
    definition.name ∈ (sourcesOf definitions).map SourceDefinition.name := by
  cases definition with
  | source given => exact List.mem_map_of_mem (List.mem_filterMap.mpr ⟨_, member, rfl⟩)
  | bundle given => cases isSource

theorem bundleName_of_kind (member : definition ∈ definitions)
    (isBundle : definition.kind = .bundle) :
    definition.name ∈ (bundlesOf definitions).map BundleDefinition.name := by
  cases definition with
  | source given => cases isBundle
  | bundle given => exact List.mem_map_of_mem (List.mem_filterMap.mpr ⟨_, member, rfl⟩)

/-- Definitions have distinct sections. -/
theorem nodup_sections (sources : ((sourcesOf definitions).map SourceDefinition.name).Nodup)
    (bundles : ((bundlesOf definitions).map BundleDefinition.name).Nodup) :
    ((definitions.map (Definition.block layout)).map Block.name).Nodup := by
  rw [List.map_map]
  induction definitions with
  | nil => exact List.nodup_nil
  | cons definition rest inductionHypothesis =>
      have absent {kind : DefinitionKind} {name : String}
          (isNew : ∀ other ∈ rest, other.kind = kind → other.name ≠ name) :
          sectionOf kind name ∉ rest.map (Block.name ∘ Definition.block layout) := by
        intro member
        obtain ⟨other, isOther, same⟩ := List.mem_map.mp member
        obtain ⟨sameKind, sameName⟩ := sectionOf_inj.mp same
        exact isNew other isOther sameKind sameName
      rw [List.map_cons, List.nodup_cons]
      cases definition with
      | source given =>
          obtain ⟨isNew, others⟩ := List.nodup_cons.mp sources
          refine ⟨absent fun other member isSource same => isNew ?_,
            inductionHypothesis others bundles⟩
          have named := sourceName_of_kind member isSource
          rwa [same] at named
      | bundle given =>
          obtain ⟨isNew, others⟩ := List.nodup_cons.mp bundles
          refine ⟨absent fun other member isBundle same => isNew ?_,
            inductionHypothesis sources others⟩
          have named := bundleName_of_kind member isBundle
          rwa [same] at named

/-- The configuration that definitions stand for. -/
def configOf (layout : Layout) (definitions : List Definition) : Config where
  document := documentOf (definitions.map (Definition.block layout))

theorem keys_sections (layout : Layout) (definitions : List Definition) :
    (configOf layout definitions).document.sections.keys =
      (definitions.map (Definition.block layout)).map Block.name := by
  simp only [configOf, documentOf, Assoc.keys, List.map_map]
  rfl

/-- A section of a kind is known by its mark. -/
theorem namesOf_sectionOf (kind other : DefinitionKind) (name : String) :
    (if (kind.name ++ ":").toList.isPrefixOf (sectionOf other name).toList then
        some (String.ofList ((sectionOf other name).toList.drop (kind.name ++ ":").toList.length))
      else none) = if other = kind then some name else none := by
  have mark : (kind.name ++ ":").toList = kind.name.toList ++ [':'] := by simp
  rw [toList_sectionOf, mark]
  by_cases same : other = kind
  · subst same
    have shape : other.name.toList ++ ':' :: name.toList =
        (other.name.toList ++ [':']) ++ name.toList := by simp
    rw [shape, if_pos (List.isPrefixOf_iff_prefix.mpr (List.prefix_append _ _)), List.drop_left,
      String.ofList_toList, if_pos rfl]
  · rw [if_neg same]
    refine if_neg fun isPrefix => ?_
    cases kind <;> cases other
    all_goals first
      | exact same rfl
      | cases isPrefix

/-- The names of one kind, in the order of the definitions. -/
theorem namesOf_configOf (kind : DefinitionKind) (layout : Layout) (definitions : List Definition) :
    (configOf layout definitions).document.namesOf kind.name =
      definitions.filterMap fun definition =>
        if definition.kind = kind then some definition.name else none := by
  rw [Document.namesOf, keys_sections, List.map_map, List.filterMap_map]
  exact List.filterMap_congr fun definition _ => namesOf_sectionOf kind _ _

theorem sources_configOf (layout : Layout) (definitions : List Definition) :
    (configOf layout definitions).sources =
      (sourcesOf definitions).map SourceDefinition.name := by
  refine (namesOf_configOf .source layout definitions).trans ?_
  rw [sourcesOf, List.map_filterMap]
  refine List.filterMap_congr fun definition _ => ?_
  cases definition <;> rfl

theorem bundles_configOf (layout : Layout) (definitions : List Definition) :
    (configOf layout definitions).bundles =
      (bundlesOf definitions).map BundleDefinition.name := by
  refine (namesOf_configOf .bundle layout definitions).trans ?_
  rw [bundlesOf, List.map_filterMap]
  refine List.filterMap_congr fun definition _ => ?_
  cases definition <;> rfl

variable (sound : AreWritable definitions)
include sound

theorem find?_configOf (layout : Layout) (member : definition ∈ definitions) :
    Assoc.find? (configOf layout definitions).document.sections
        (sectionOf definition.kind definition.name) =
      some (Assoc.mapValues shownValue (layout.written definition.fields)) := by
  refine Assoc.find?_of_mem ?_ ?_
  · rw [keys_sections]
    exact nodup_sections sound.sourceNames sound.bundleNames
  · exact List.mem_map.mpr ⟨_, List.mem_map_of_mem member, rfl⟩

theorem holds_configOf (member : definition ∈ definitions) :
    (configOf layout definitions).Holds (sectionOf definition.kind definition.name)
      (layout.written definition.fields) := by
  have found := find?_configOf sound layout member
  have distinct : (layout.written definition.fields).keys.Nodup :=
    (List.filter_sublist.map Prod.fst).nodup (nodup_fields definition)
  refine ⟨?_, distinct, fun entry isEntry => ?_⟩
  · rw [Document.optionNames, found]
    simp only [Option.getD_some, Assoc.keys_mapValues]
    exact List.append_nil _
  · have value : (configOf layout definitions).document.raw?
        (sectionOf definition.kind definition.name) entry.1 = some (some (escape entry.2)) := by
      have special : sectionOf definition.kind definition.name ≠ defaultSection :=
        sectionOf_ne_of_noColon (by decide)
      have shown : Assoc.find? (Assoc.mapValues shownValue (layout.written definition.fields))
          entry.1 = some (some (escape entry.2)) := by
        rw [Assoc.find?_mapValues, Assoc.find?_of_mem distinct isEntry]
        rfl
      simp only [Document.raw?, if_neg special, found, shown]
    have isValue := isValue_of_fields (sound.each member) entry (List.mem_of_mem_filter isEntry)
    exact ⟨value_of_escape value, Text.strip_eq_self.mpr isValue.trimmed⟩

theorem checkedSettings_configOf (member : definition ∈ definitions)
    {available required : List String}
    (complete : ∀ key ∈ required, setting definition.fields key ≠ "") :
    (configOf layout definitions).checkedSettings definition.kind definition.name available
      required = .ok (layout.written definition.fields) := by
  refine checkedSettings_of_holds ?_ ?_ (holds_configOf sound member) ?_
  · rw [Document.hasSection, Assoc.contains, find?_configOf sound layout member]
    rfl
  · have absent : definition.kind.name ∉ (configOf layout definitions).document.sections.keys := by
      rw [keys_sections, List.map_map]
      intro isSection
      obtain ⟨other, -, same⟩ := List.mem_map.mp isSection
      exact sectionOf_ne_of_noColon (by cases definition.kind <;> decide) same
    rw [Document.hasSection, Assoc.contains, Assoc.find?_eq_none.mpr absent]
    rfl
  · rw [missing, List.filter_eq_nil_iff]
    intro key isRequired
    rw [setting_written layout (nodup_fields definition)]
    simpa using complete key isRequired

theorem source_configOf {source : SourceDefinition} (isSource : source ∈ sourcesOf definitions) :
    (configOf layout definitions).source source.name = .ok source := by
  have writable := sound.sources source isSource
  obtain ⟨definition, member, isDefinition⟩ := List.mem_filterMap.mp isSource
  obtain rfl : definition = .source source := by
    cases definition with
    | source given => exact congrArg Definition.source (Option.some.inj isDefinition)
    | bundle given => cases isDefinition
  refine source_of_fields writable (checkedSettings_configOf sound member ?_)
    (setting_written layout (nodup_fields (.source source)))
  rw [List.forall_mem_singleton]
  exact writable.dialect.filled

theorem bundle_configOf {bundle : BundleDefinition} (isBundle : bundle ∈ bundlesOf definitions) :
    (configOf layout definitions).bundle bundle.name = .ok bundle := by
  have writable := sound.bundles bundle isBundle
  obtain ⟨definition, member, isDefinition⟩ := List.mem_filterMap.mp isBundle
  obtain rfl : definition = .bundle bundle := by
    cases definition with
    | source given => cases isDefinition
    | bundle given => exact congrArg Definition.bundle (Option.some.inj isDefinition)
  have known := sound.known bundle isBundle
  have named : ∀ source ∈ bundle.sources, IsName source.name :=
    fun source isFed => (sound.sources source (known source isFed)).name
  have items : ∀ item ∈ bundle.sources.map SourceDefinition.name, IsItem item := by
    rw [List.forall_mem_map]
    exact fun source isFed => (named source isFed).toIsItem
  refine bundle_of_fields writable named
    (fun source isFed => source_configOf sound (known source isFed))
    (checkedSettings_configOf sound member ?_)
    (setting_written layout (nodup_fields (.bundle bundle)))
  simp only [List.forall_mem_cons]
  refine ⟨writable.output.filled, fun empty => ?_, nofun⟩
  have listed : listText (bundle.sources.map SourceDefinition.name) = "" := empty
  refine (isTrimmed_listText items).2 ?_ (by rw [listed]; rfl)
  simpa using writable.fed

end Documents

/-- What is written as a configuration is read as what it stands for. -/
theorem load_configOf {tree : Tree} {here : Location} {path : Path} (layout : Layout)
    {definitions : List Definition} (sound : AreWritable definitions)
    (holds : tree.read here path = .ok (Utf8.encode (render layout definitions))) :
    load tree here path = .ok (configOf layout definitions) := by
  have writable : ∀ block ∈ definitions.map (Definition.block layout), block.IsWritable := by
    rw [List.forall_mem_map]
    exact fun definition member => isWritable_block (sound.each member)
  have read : ofBytes (Utf8.encode (render layout definitions)) =
      .ok (configOf layout definitions).document :=
    ofBytes_renderBlocks layout.gap writable (nodup_sections sound.sourceNames sound.bundleNames)
  rw [load_of_read holds, read]

/-- What is written as a configuration is read as it was: the names of the bundles and of the
sources in their order, and each definition by its name. -/
theorem load_render {tree : Tree} {here : Location} {path : Path} (layout : Layout)
    {definitions : List Definition} (sound : AreWritable definitions)
    (holds : tree.read here path = .ok (Utf8.encode (render layout definitions))) :
    ∃ config, load tree here path = .ok config ∧
      config.bundles = (bundlesOf definitions).map BundleDefinition.name ∧
      config.sources = (sourcesOf definitions).map SourceDefinition.name ∧
      (∀ bundle ∈ bundlesOf definitions, config.bundle bundle.name = .ok bundle) ∧
      ∀ source ∈ sourcesOf definitions, config.source source.name = .ok source :=
  ⟨configOf layout definitions, load_configOf layout sound holds,
    bundles_configOf layout definitions, sources_configOf layout definitions,
    fun _ => bundle_configOf sound, fun _ => source_configOf sound⟩

section Sample

def sampleSource : SourceDefinition where
  name := "π: main"
  dialect := "coffee"
  files := ["#a$$b.coffee", "$\x7bx:y\x7d.coffee", "; c = d.coffee", "[e] 100%"]
  scope := "app$"
  bare := true

def sampleBundle : BundleDefinition where
  name := "one"
  output := "out/$one.js"
  sources := [sampleSource]
  minify := true
  polyfill := some "= é"

theorem areWritable_sample :
    AreWritable [.bundle sampleBundle, .source sampleSource] where
  sources := by
    refine List.forall_mem_singleton.mpr ⟨?_, ?_, ?_, nofun, nofun, fun _ => ?_, nofun, nofun, rfl⟩
    all_goals decide +kernel
  bundles := by
    refine List.forall_mem_singleton.mpr ⟨?_, ?_, List.cons_ne_nil _ _, rfl, ?_⟩
    · decide +kernel
    · decide +kernel
    · rintro path ⟨⟩
      decide +kernel
  sourceNames := List.nodup_singleton _
  bundleNames := List.nodup_singleton _
  known := by
    refine List.forall_mem_singleton.mpr (List.forall_mem_singleton.mpr ?_)
    exact List.mem_singleton_self _

/-- Dollar signs, references, delimiters and comment signs are values like others. -/
theorem load_render_sample :
    let definitions : List Definition := [.bundle sampleBundle, .source sampleSource]
    AreWritable definitions ∧
      ∃ config, load (lonely (Utf8.encode (render {} definitions))).tree ["p"] lonelyPath =
          .ok config ∧ config.bundles = ["one"] ∧ config.sources = ["π: main"] ∧
        config.bundle "one" = .ok sampleBundle := by
  intro definitions
  obtain ⟨config, loaded, bundles, sources, found, -⟩ :=
    @load_render (lonely (Utf8.encode (render {} definitions))).tree ["p"] lonelyPath {} definitions
      areWritable_sample rfl
  exact ⟨areWritable_sample, config, loaded, bundles, sources,
    found sampleBundle (List.mem_singleton_self _)⟩

end Sample

end AssetBundler.Config

import AssetBundler.Config.Definition
import AssetBundler.Config.Values

/-!
Look-up of bundles and sources in a configuration.
-/

namespace AssetBundler

structure Config where
  document : Ini.Document

namespace Config

def bundles (config : Config) : List String := config.document.namesOf "bundle"

def sources (config : Config) : List String := config.document.namesOf "source"

def sectionOf (kind : DefinitionKind) (name : String) : String := kind.name ++ ":" ++ name

def hasBundle (config : Config) (name : String) : Bool :=
  config.document.hasSection (sectionOf .bundle name)

/-- The values of the options in their order. A name without a value has the empty one, and
blanks around a value do not count. Faults are shown with the section that is asked for. -/
def values (config : Config) (asked section_ : String) (names : List String) :
    Except Failure Settings :=
  match names with
  | [] => .ok []
  | name :: rest => do
      let value ←
        match config.document.value section_ name with
        | .ok value => .ok (Text.strip (value.getD ""))
        | .error fault => .error (Failure.ofReference asked fault)
      let others ← config.values asked section_ rest
      return (name, value) :: others

/-- A section named by the kind alone holds the defaults of all sections of the kind. -/
def settings (config : Config) (kind : DefinitionKind) (name : String) :
    Except Failure Settings := do
  let section_ := sectionOf kind name
  let general ←
    if config.document.hasSection kind.name then
      config.values section_ kind.name (config.document.optionNames kind.name)
    else .ok []
  let special ← config.values section_ section_ (config.document.optionNames section_)
  return Assoc.merge (Assoc.merge [] general) special

/-- The required fields without a value. -/
def missing (settings : Settings) (required : List String) : List String :=
  required.filter fun field => setting settings field == ""

/-- The settings of a section that exists and has the required fields. -/
def checkedSettings (config : Config) (kind : DefinitionKind) (name : String)
    (available required : List String) : Except Failure Settings := do
  if !config.document.hasSection (sectionOf kind name) then
    throw (.config (.unknown kind name available))
  let settings ← config.settings kind name
  if missing settings required ≠ [] then
    throw (.config (.missingFields kind name (missing settings required)))
  return settings

def source (config : Config) (name : String) : Except Failure SourceDefinition := do
  let settings ← config.checkedSettings .source name config.sources ["dialect"]
  let section_ := sectionOf .source name
  let autoRequire ← parseBool settings "auto_require" section_
  let bare ← parseBool settings "bare" section_
  let prefixing ← parseBool settings "autoprefix" section_
  let prefixOptions ← parseOptions settings "autoprefix_options" section_
  return {
    name := name
    dialect := setting settings "dialect"
    files := splitList (setting settings "files")
    paths := splitList (setting settings "paths")
    extension := nonEmpty? (setting settings "extension")
    scope := setting settings "namespace"
    autoRequire := autoRequire
    presets := splitList (setting settings "presets")
    plugins := splitList (setting settings "plugins")
    bare := bare
    prefixing := prefixing
    prefixOptions := prefixOptions }

/-- The sources are looked up before the switches are read. -/
def bundle (config : Config) (name : String) : Except Failure BundleDefinition := do
  let settings ← config.checkedSettings .bundle name config.bundles ["output", "sources"]
  let section_ := sectionOf .bundle name
  let sources ← (splitList (setting settings "sources")).mapM config.source
  let sourceMaps ← parseBool settings "sourcemaps" section_
  let minify ← parseBool settings "minify" section_
  let minifyOptions ← parseOptions settings "minify_options" section_
  let gzip ← parseBool settings "gzip" section_
  let commonJs ← parseBool settings "commonjs" section_
  return {
    name := name
    output := setting settings "output"
    sources := sources
    sourceMaps := sourceMaps
    minify := minify
    minifyOptions := minifyOptions
    gzip := gzip
    commonJs := commonJs
    polyfill := nonEmpty? (setting settings "polyfill") }

def generalSection : String := "webbuild"

/-- The bundles that are listed as defaults, or all of them when no list is given. -/
def defaultBundles (config : Config) : Except Failure (List String) := do
  if config.document.hasSection generalSection then
    let value ←
      match config.document.value generalSection "default_bundles" with
      | .ok value => .ok (Text.strip (value.getD ""))
      | .error fault => .error (Failure.ofReference generalSection fault)
    if value ≠ "" then return splitList value
  return config.bundles

/-- The document at a path. A path to a directory gives the empty document. -/
def load (tree : Tree) (directory : Location) (path : Path) : Except Failure Config := do
  match tree.hasNode directory path with
  | .error fault => throw (.file fault)
  | .ok false => throw (.config (.notFound path))
  | .ok true =>
      match tree.read directory path with
      | .error _ => return ⟨{}⟩
      | .ok bytes =>
          match Ini.ofBytes bytes with
          | .ok document => return ⟨document⟩
          | .error fault => throw (Failure.ofDocument path fault)

/-- The path of the configuration in a project, if it exists. -/
def find? (tree : Tree) (directory : Location) (project : Path) :
    Except Failure (Option Path) :=
  let path := project.joinText configName
  match tree.hasNode directory path with
  | .error fault => .error (.file fault)
  | .ok false => .ok none
  | .ok true => .ok (some path)

end Config

end AssetBundler

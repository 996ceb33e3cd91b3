import AssetBundler.Capability.Registry
import AssetBundler.Dialect
import AssetBundler.FileSystem.Operations
import AssetBundler.Ini.Blocks
import AssetBundler.Ini.Interpolation
import AssetBundler.Json.Parser
import AssetBundler.SelectorTable

/-!
Why an operation fails. Each cause has a message, and a label that names its class.
-/

namespace AssetBundler

/-- A selector or an option that does not suit a compiler. -/
inductive Validation where
  | openDirectory (fault : SelectorTable.OpenDirectory)
  | foreignDialect (dialect : Dialect) (compiler : String)
  | presetsUnsupported (dialect : Dialect)
  | pluginsUnsupported (dialect : Dialect)
  | bareUnsupported (dialect : Dialect)
  | styleOnly
  | scriptOnly
  deriving DecidableEq, Repr

def Validation.message : Validation → String
  | .openDirectory fault => fault.message
  | .foreignDialect dialect compiler =>
      "Dialect '" ++ dialect.name ++ "' cannot be compiled by " ++ compiler
  | .presetsUnsupported dialect =>
      "Presets are only supported by babel dialects, not '" ++ dialect.name ++ "'"
  | .pluginsUnsupported dialect =>
      "Plugins are only supported by babel dialects, not '" ++ dialect.name ++ "'"
  | .bareUnsupported dialect =>
      "Bare mode is only supported by coffee, not '" ++ dialect.name ++ "'"
  | .styleOnly => "autoprefix is only supported by stylesheet dialects"
  | .scriptOnly => "namespace, presets, plugins and bare are only supported by script dialects"

/-- Why the contents of a file cannot be had. -/
inductive ReadFault where
  | file (fault : FileFault)
  | undecodable (fault : Utf8.Fault)
  deriving DecidableEq, Repr

def ReadFault.message : ReadFault → String
  | .file fault => fault.message
  | .undecodable fault => fault.message

/-- Why a selection has no files. -/
inductive SelectionFault where
  | notFound (pattern : String)
  | unreadable (path : Path) (fault : ReadFault)
  deriving DecidableEq, Repr

def SelectionFault.message : SelectionFault → String
  | .notFound pattern => "Source file not found: " ++ pattern
  | .unreadable path fault => "Failed to read " ++ path.toString ++ ": " ++ fault.message

/-- Sections define bundles or sources. -/
inductive DefinitionKind where
  | bundle
  | source
  deriving DecidableEq, Repr

def DefinitionKind.name : DefinitionKind → String
  | .bundle => "bundle"
  | .source => "source"

def DefinitionKind.title : DefinitionKind → String
  | .bundle => "Bundle"
  | .source => "Source"

/-- Why a source of a bundle cannot be set up. -/
inductive SourceFault where
  | dialect (unknown : Dialect.Unknown)
  | invalid (fault : Validation)
  deriving DecidableEq, Repr

def SourceFault.message : SourceFault → String
  | .dialect unknown => unknown.message
  | .invalid fault => fault.message

/-- Why a configuration does not describe a bundle. -/
inductive ConfigFault where
  | notFound (path : Path)
  | malformed (path : Path) (fault : Ini.LineFault)
  | reference (section_ : String) (fault : Ini.ReferenceFault)
  | unknown (kind : DefinitionKind) (name : String) (available : List String)
  | missingFields (kind : DefinitionKind) (name : String) (fields : List String)
  | notBoolean (section_ key value : String)
  | invalidJson (section_ key : String) (error : Json.ParseError)
  | notObject (section_ key : String)
  | source (name : String) (fault : SourceFault)
  deriving DecidableEq, Repr

/-- The names with commas between them, or a word when there is none. -/
def listNames (names : List String) : String :=
  let text := ", ".intercalate names
  if text = "" then "none" else text

def ConfigFault.message : ConfigFault → String
  | .notFound path => "Configuration file not found: " ++ path.toString
  | .malformed path fault => "Failed to parse " ++ path.toString ++ ": " ++ fault.message path
  | .reference section_ fault => "[" ++ section_ ++ "] " ++ fault.message
  | .unknown kind name available =>
      kind.title ++ " '" ++ name ++ "' not found. Available " ++ kind.name ++ "s: " ++
        listNames available
  | .missingFields kind name fields =>
      kind.title ++ " '" ++ name ++ "' is missing required fields: " ++ ", ".intercalate fields
  | .notBoolean section_ key value =>
      "[" ++ section_ ++ "] " ++ key ++ ": expected a boolean, got '" ++ value ++ "'"
  | .invalidJson section_ key error =>
      "[" ++ section_ ++ "] " ++ key ++ ": invalid JSON (" ++ error.message ++ ")"
  | .notObject section_ key => "[" ++ section_ ++ "] " ++ key ++ ": expected a JSON object"
  | .source name fault => "Source '" ++ name ++ "': " ++ fault.message

/-- Why a project cannot be built at all. -/
inductive ProjectFault where
  | noConfig (directory : Path)
  | noBundles
  | config (fault : ConfigFault)
  deriving DecidableEq, Repr

def configName : String := "webbuild.ini"

def ProjectFault.message : ProjectFault → String
  | .noConfig directory => configName ++ " not found in " ++ directory.toString
  | .noBundles => "No bundles defined in " ++ configName
  | .config fault => fault.message

/-- Why the choice of bundles is refused. -/
inductive ChoiceFault where
  | unknownBundles (names available : List String)
  | noBundles
  deriving DecidableEq, Repr

def ChoiceFault.message : ChoiceFault → String
  | .unknownBundles names available =>
      "Unknown bundle(s): " ++ ", ".intercalate names ++ ". Available bundles: " ++
        listNames available
  | .noBundles => "No bundles found in " ++ configName

inductive Failure where
  | validation (fault : Validation)
  | compilerFrozen
  | builderBuilt
  | noCompilers
  | invalidOutput (output : String)
  | missingCapability (missing : Registry.Missing)
  | selection (fault : SelectionFault)
  | config (fault : ConfigFault)
  | project (fault : ProjectFault)
  | choice (fault : ChoiceFault)
  | capability (fault : CapabilityFault)
  | file (fault : FileFault)
  | undecodable (fault : Utf8.Fault)
  | suffix (fault : Path.SuffixFault)
  | jsonLimit (fault : Json.Fault)
  | valuelessReference
  | continuedName
  | noConfigFile (directory : Path)
  | unsupportedCall (compiler call : String)
  | repeatedArgument (compiler call argument : String)
  | namelessBundle (position : Nat)
  deriving DecidableEq, Repr

namespace Failure

def message : Failure → String
  | .validation fault => fault.message
  | .compilerFrozen => "Compiler configuration is frozen once the build has started"
  | .builderBuilt => "Builder has already been built; create a new Builder"
  | .noCompilers => "Building error. Empty sources list"
  | .invalidOutput output => "Invalid output path " ++ output
  | .missingCapability missing => missing.message
  | .selection fault => fault.message
  | .config fault => fault.message
  | .project fault => fault.message
  | .choice fault => fault.message
  | .capability (.raised _ message) => message
  | .capability .interrupted => ""
  | .file fault => fault.message
  | .undecodable fault => fault.message
  | .suffix fault => fault.message
  | .jsonLimit fault => fault.message
  | .valuelessReference => Ini.ReferenceFault.valueless.message
  | .continuedName => Ini.LineFault.continuedName.message ⟨.here, []⟩
  | .noConfigFile directory => configName ++ " not found in " ++ directory.toString
  | .unsupportedCall compiler call =>
      "'" ++ compiler ++ "' object has no attribute '" ++ call ++ "'"
  | .repeatedArgument compiler call argument =>
      compiler ++ "." ++ call ++ "() got multiple values for argument '" ++ argument ++ "'"
  | .namelessBundle position =>
      "sequence item " ++ toString position ++ ": expected str instance, list found"

/-- The label of a refused path. -/
def refusalLabel : Refusal → String
  | .missing => "FileNotFoundError"
  | .exists => "FileExistsError"
  | .notDirectory => "NotADirectoryError"
  | .isDirectory => "IsADirectoryError"
  | .nameTooLong => "OSError"
  | .tooManyLinks => "OSError"

def label : Failure → String
  | .validation _ => "ValidationError"
  | .compilerFrozen => "BuilderStateError"
  | .builderBuilt => "BuilderStateError"
  | .noCompilers => "EmptySourceError"
  | .invalidOutput _ => "InvalidOutputPathError"
  | .missingCapability _ => "CapabilityMissingError"
  | .selection _ => "SourceScannerError"
  | .config _ => "BundleConfigError"
  | .project _ => "BuildOrchestratorError"
  | .choice _ => "ValueError"
  | .capability (.raised label _) => label
  | .capability .interrupted => "KeyboardInterrupt"
  | .file (.refused refusal _) => refusalLabel refusal
  | .file .nullCharacter => "ValueError"
  | .undecodable _ => "UnicodeDecodeError"
  | .suffix _ => "ValueError"
  | .jsonLimit (.nestedTooDeep _) => "RecursionError"
  | .jsonLimit _ => "ValueError"
  | .valuelessReference => "TypeError"
  | .continuedName => "AttributeError"
  | .noConfigFile _ => "FileNotFoundError"
  | .unsupportedCall _ _ => "AttributeError"
  | .repeatedArgument _ _ _ => "TypeError"
  | .namelessBundle _ => "TypeError"

/-- An interruption is never taken for the result of a build. -/
def isInterruption : Failure → Bool
  | .capability .interrupted => true
  | _ => false

/-- The classes of the failures that a build reports by their bare message. -/
def reportedLabels : List String :=
  ["BuildOrchestratorError", "BundleConfigError", "BuilderStateError", "CapabilityMissingError",
    "EmptySourceError", "InvalidOutputPathError", "SourceScannerError", "ValidationError"]

/-- A failure is known by its class, whoever raised it. -/
def isReported (failure : Failure) : Bool := reportedLabels.contains failure.label

/-- The failures that count as an invalid value. -/
def isValueFault (failure : Failure) : Bool :=
  failure.label == "ValueError" || failure.label == "UnicodeDecodeError"

def isMissingFile (failure : Failure) : Bool := failure.label == "FileNotFoundError"

/-- A reference without a value is an accident of the value and no fault of the configuration. -/
def ofReference (section_ : String) : Ini.ReferenceFault → Failure
  | .valueless => .valuelessReference
  | fault => .config (.reference section_ fault)

/-- A continued name and malformed octets are reported as they are. -/
def ofDocument (path : Path) : Ini.ReadFault → Failure
  | .line .continuedName => .continuedName
  | .line fault => .config (.malformed path fault)
  | .undecodable fault => .undecodable fault

end Failure

end AssetBundler

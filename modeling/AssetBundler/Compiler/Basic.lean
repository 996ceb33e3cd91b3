import AssetBundler.Failure
import AssetBundler.ModuleId
import AssetBundler.SourceFile

/-!
Compilers and their settings. A compiler selects the sources of one dialect and knows how they are
to be transformed. Once it is frozen no setting changes any more.
-/

namespace AssetBundler

/-- A plain compiler has neither a module wrapper nor a prefixer nor a minifier. -/
inductive CompilerKind where
  | script
  | style
  | plain
  deriving DecidableEq, Repr

def CompilerKind.label : CompilerKind → String
  | .script => "ScriptCompiler"
  | .style => "StyleCompiler"
  | .plain => "PlainCompiler"

def CompilerKind.family : CompilerKind → Family
  | .script => .script
  | .style => .style
  | .plain => .script

def CompilerKind.minifier? : CompilerKind → Option String
  | .script => some "js-minify"
  | .style => some "css-minify"
  | .plain => none

def CompilerKind.ofFamily : Family → CompilerKind
  | .script => .script
  | .style => .style

structure Compiler where
  kind : CompilerKind
  dialect : Dialect
  verbose : Bool
  frozen : Bool := false
  table : SelectorTable := {}
  scope : String := ""
  wrapOptions : Options := []
  presets : List String := []
  plugins : List String := []
  bare : Bool := false
  prefixing : Bool := false
  prefixOptions : Options := []

/-- One step of the configuration of a compiler. -/
inductive Setting where
  | file (path : String)
  | directory (path : String) (extension : Option String)
  | scope (name : String) (options : Options)
  | presets (names : List String)
  | plugins (names : List String)
  | bare (enabled : Bool)
  | prefixing (enabled : Bool) (options : Options)
  | freeze

namespace Compiler

/-- The presets of the dialect are on from the start. -/
def create (dialect : Dialect) (verbose : Bool) : Compiler :=
  { kind := .ofFamily dialect.family, dialect := dialect, verbose := verbose,
    presets := dialect.presets }

/-- A compiler of a given kind serves only the dialects of its family. -/
def ofKind (kind : CompilerKind) (dialect : Dialect) (verbose : Bool) :
    Except Failure Compiler :=
  if dialect.family = kind.family then
    .ok { kind := kind, dialect := dialect, verbose := verbose, presets := dialect.presets }
  else .error (.validation (.foreignDialect dialect kind.label))

def freeze (compiler : Compiler) : Compiler := { compiler with frozen := true }

def checkMutable (compiler : Compiler) : Except Failure Unit :=
  if compiler.frozen then .error .compilerFrozen else .ok ()

/-- A call that compilers of other kinds do not know. -/
def checkKind (compiler : Compiler) (kind : CompilerKind) (call : String) :
    Except Failure Unit :=
  if compiler.kind = kind then .ok () else .error (.unsupportedCall compiler.kind.label call)

def addFile (compiler : Compiler) (path : String) : Except Failure Compiler := do
  compiler.checkMutable
  return { compiler with table := compiler.table.addFile path }

/-- Without an extension that of the dialect is taken. -/
def addDirectory (compiler : Compiler) (path : String) (extension : Option String) :
    Except Failure Compiler := do
  compiler.checkMutable
  match compiler.table.addDirectory path (extension.getD compiler.dialect.extension) with
  | .ok table => return { compiler with table := table }
  | .error fault => throw (.validation (.openDirectory fault))

/-- The arguments of the call that sets a namespace, besides the options. -/
def scopeArguments : List CodeText := ["self", "name"]

/-- No option may bear the name of an argument. -/
def checkScopeOptions (compiler : Compiler) (options : Options) : Except Failure Unit :=
  match List.find? (fun option => scopeArguments.contains option.1) options with
  | some option => .error (.repeatedArgument compiler.kind.label "namespace" option.1.shown)
  | none => .ok ()

/-- Under a namespace the files are wrapped as modules. The empty name takes the namespace away. -/
def setScope (compiler : Compiler) (name : String) (options : Options) :
    Except Failure Compiler := do
  compiler.checkKind .script "namespace"
  compiler.checkScopeOptions options
  compiler.checkMutable
  return { compiler with
    scope := if name = "" then "" else ModuleId.normalizeNamespace name
    wrapOptions := options }

def addPresets (compiler : Compiler) (names : List String) : Except Failure Compiler := do
  compiler.checkKind .script "preset"
  compiler.checkMutable
  if compiler.dialect.isBabel then
    return { compiler with presets := compiler.presets ++ names }
  else throw (.validation (.presetsUnsupported compiler.dialect))

def addPlugins (compiler : Compiler) (names : List String) : Except Failure Compiler := do
  compiler.checkKind .script "plugin"
  compiler.checkMutable
  if compiler.dialect.isBabel then
    return { compiler with plugins := compiler.plugins ++ names }
  else throw (.validation (.pluginsUnsupported compiler.dialect))

def setBare (compiler : Compiler) (enabled : Bool) : Except Failure Compiler := do
  compiler.checkKind .script "bare"
  compiler.checkMutable
  if compiler.dialect = .coffee then return { compiler with bare := enabled }
  else throw (.validation (.bareUnsupported compiler.dialect))

def setPrefixing (compiler : Compiler) (enabled : Bool) (options : Options) :
    Except Failure Compiler := do
  compiler.checkKind .style "autoprefix"
  compiler.checkMutable
  return { compiler with prefixing := enabled, prefixOptions := options }

/-- A setting that is refused changes nothing. -/
def configure (compiler : Compiler) : Setting → Except Failure Compiler
  | .file path => compiler.addFile path
  | .directory path extension => compiler.addDirectory path extension
  | .scope name options => compiler.setScope name options
  | .presets names => compiler.addPresets names
  | .plugins names => compiler.addPlugins names
  | .bare enabled => compiler.setBare enabled
  | .prefixing enabled options => compiler.setPrefixing enabled options
  | .freeze => .ok compiler.freeze

/-- The settings are applied up to the first one that is refused. -/
def configureAll (compiler : Compiler) : List Setting → Except Failure Unit × Compiler
  | [] => (.ok (), compiler)
  | setting :: rest =>
      match compiler.configure setting with
      | .ok changed => changed.configureAll rest
      | .error failure => (.error failure, compiler)

def patterns (compiler : Compiler) : List String := compiler.table.patterns

/-- The capabilities that the sources need after the transform. -/
def postCapabilities (compiler : Compiler) : List String :=
  match compiler.kind with
  | .script => if compiler.scope = "" then [] else ["commonjs"]
  | .style => if compiler.prefixing then ["autoprefixer"] else []
  | .plain => []

/-- The capabilities that the sources need. -/
def requiredCapabilities (compiler : Compiler) : List String :=
  compiler.dialect.capability?.toList ++ compiler.postCapabilities

/-- What the transform is told. -/
def transformOptions (compiler : Compiler) : Options :=
  match compiler.kind with
  | .script =>
      if compiler.dialect.isBabel then
        [("presets", .array (compiler.presets.map fun name => .string (CodeText.ofString name))),
          ("plugins", .array (compiler.plugins.map fun name => .string (CodeText.ofString name)))]
      else if compiler.dialect = .coffee ∧ compiler.bare then [("bare", .bool true)]
      else []
  | _ => []

/-- The identifier that a source is registered under. -/
def moduleId (compiler : Compiler) (source : SourceFile) : String :=
  ModuleId.ofPath source.origin.toString compiler.table.entries compiler.scope

end Compiler

end AssetBundler

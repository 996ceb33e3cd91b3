import AssetBundler.Builder.Basic
import AssetBundler.Config.Definition

/-!
Builders made from the definition of a bundle.
-/

namespace AssetBundler.Builder

/-- The settings that a definition asks for, in the order in which they are made. -/
def fileSettings (source : SourceDefinition) : List Setting :=
  source.files.map Setting.file ++
    source.paths.map fun path => .directory path source.extension

def scriptSettings (source : SourceDefinition) : List Setting :=
  (if source.scope = "" then []
    else [.scope source.scope [("auto_require", .bool source.autoRequire)]]) ++
  (if source.presets.isEmpty then [] else [.presets source.presets]) ++
  (if source.plugins.isEmpty then [] else [.plugins source.plugins]) ++
  (if source.bare then [.bare true] else [])

def styleSettings (source : SourceDefinition) : List Setting :=
  if source.prefixing then [.prefixing true source.prefixOptions] else []

def asksForScript (source : SourceDefinition) : Bool :=
  source.scope != "" || !source.presets.isEmpty || !source.plugins.isEmpty || source.bare

/-- An option of the other family is refused. -/
def configureSource (compiler : Compiler) (source : SourceDefinition) :
    Except Failure Compiler := do
  let compiler ← (fileSettings source).foldlM Compiler.configure compiler
  match compiler.dialect.family with
  | .script =>
      let compiler ← (scriptSettings source).foldlM Compiler.configure compiler
      if source.prefixing then throw (.validation .styleOnly)
      return compiler
  | .style =>
      if asksForScript source then throw (.validation .scriptOnly)
      (styleSettings source).foldlM Compiler.configure compiler

/-- The compiler of a source. A fault is shown with the name of the source. -/
def sourceCompiler (verbose : Bool) (source : SourceDefinition) : Except Failure Compiler :=
  match Dialect.parse source.dialect with
  | .error unknown => .error (.config (.source source.name (.dialect unknown)))
  | .ok dialect =>
      match configureSource (Compiler.create dialect verbose) source with
      | .ok compiler => .ok compiler
      | .error (.validation fault) =>
          .error (.config (.source source.name (.invalid fault)))
      | .error failure => .error failure

/-- A compiler for one script. -/
def scriptCompiler (verbose : Bool) (path : String) : Compiler :=
  { Compiler.create .js verbose with table := SelectorTable.addFile {} path }

/-- The script that modules are registered with comes first, then the polyfill, then the
sources. -/
def ofDefinition (builder : Builder) (bundle : BundleDefinition) : Except Failure Builder := do
  let sources ← bundle.sources.mapM (sourceCompiler builder.verbose)
  let runtime := if bundle.commonJs then [builder.runtime] else []
  let polyfill := (bundle.polyfill.filter (· != "")).toList
  return { builder with
    compilers := (runtime ++ polyfill).map (scriptCompiler builder.verbose) ++ sources
    sourceMaps := bundle.sourceMaps
    minify := bundle.minify
    minifyOptions := bundle.minifyOptions
    gzip := bundle.gzip }

end AssetBundler.Builder

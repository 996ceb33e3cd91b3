import AssetBundler.Compiler.Stream
import AssetBundler.Output

/-!
Builders. A builder lists compilers and switches, and it is built once.
-/

namespace AssetBundler

/-- The compressed copy bears the time at which it is made. -/
structure Builder where
  registry : Registry Capability
  base : Path
  runtime : String
  verbose : Bool
  showsProgress : Bool
  compilers : List Compiler := []
  sourceMaps : Bool := false
  minify : Bool := false
  minifyOptions : Options := []
  gzip : Bool := false
  packedAt : Nat := 0
  built : Bool := false

namespace Builder

def checkMutable (builder : Builder) : Except Failure Unit :=
  if builder.built then .error .builderBuilt else .ok ()

def addCompiler (builder : Builder) (dialect : Dialect) : Except Failure Builder := do
  builder.checkMutable
  return { builder with
    compilers := builder.compilers ++ [Compiler.create dialect builder.verbose] }

/-- The compiler at a place takes a setting. -/
def configure (builder : Builder) (index : Nat) (setting : Setting) :
    Except Failure Unit × Builder :=
  match builder.compilers[index]? with
  | none => (.ok (), builder)
  | some compiler =>
      match compiler.configure setting with
      | .ok changed => (.ok (), { builder with compilers := builder.compilers.set index changed })
      | .error failure => (.error failure, builder)

def configureAll (builder : Builder) (index : Nat) :
    List Setting → Except Failure Unit × Builder
  | [] => (.ok (), builder)
  | setting :: rest =>
      match builder.configure index setting with
      | (.ok (), changed) => changed.configureAll index rest
      | (.error failure, changed) => (.error failure, changed)

/-- A compiler is added first and takes its settings then. When a setting is refused, the compiler
stays with the settings before it. -/
def addConfigured (builder : Builder) (dialect : Dialect) (settings : List Setting) :
    Except Failure Unit × Builder :=
  match builder.addCompiler dialect with
  | .error failure => (.error failure, builder)
  | .ok added => added.configureAll builder.compilers.length settings

/-- The script that modules are registered with. -/
def addRuntime (builder : Builder) : Except Failure Unit × Builder :=
  builder.addConfigured .js [.file builder.runtime]

def addPolyfill (builder : Builder) (path : String) : Except Failure Unit × Builder :=
  builder.addConfigured .js [.file path]

def setSourceMaps (builder : Builder) (enabled : Bool) : Except Failure Builder := do
  builder.checkMutable
  return { builder with sourceMaps := enabled }

def setMinify (builder : Builder) (enabled : Bool) (options : Options) :
    Except Failure Builder := do
  builder.checkMutable
  return { builder with minify := enabled, minifyOptions := options }

def setGzip (builder : Builder) (enabled : Bool) : Except Failure Builder := do
  builder.checkMutable
  return { builder with gzip := enabled }

/-- A builder that is frozen stays so with all its compilers. -/
def freeze (builder : Builder) : Builder :=
  { builder with built := true, compilers := builder.compilers.map Compiler.freeze }

/-- What has to hold before a build starts. The answer is the split output. -/
def checkBuild (builder : Builder) (output : String) : Except Failure (String × String) := do
  builder.checkMutable
  if builder.compilers.isEmpty then throw .noCompilers
  Output.split output

/-- The minifier of the first compiler serves the whole bundle. -/
def minifierNames (builder : Builder) : List String :=
  if builder.minify then
    (builder.compilers.head?.bind fun first => first.kind.minifier?).toList
  else []

end Builder

end AssetBundler

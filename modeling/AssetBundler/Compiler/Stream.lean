import AssetBundler.Compiler.Basic
import AssetBundler.Workspace

/-!
Streams of compiled sources. The capabilities of a compiler are looked up before its stream
starts. The patterns of a compiler are expanded when its first source is asked for, and a source
is read when its turn comes.
-/

namespace AssetBundler

/-- A compiler with the capabilities that it needs. -/
structure PreparedCompiler where
  compiler : Compiler
  transform : Option (String × Capability)
  post : Option (String × Capability)

namespace Compiler

section Finding

variable {m : Type → Type} [Monad m]

/-- The transform of the dialect with its name. What finds a capability is left open. -/
def findTransform (find : String → m Capability) (compiler : Compiler) :
    m (Option (String × Capability)) := do
  match compiler.dialect.capability? with
  | none => return none
  | some name => return some (name, ← find name)

/-- The step after the transform: a module wrapper under a namespace, a prefixer on demand. -/
def findPost (find : String → m Capability) (compiler : Compiler) :
    m (Option (String × Capability)) := do
  match compiler.kind with
  | .script =>
      if compiler.scope = "" then return none
      else return some ("commonjs", ← find "commonjs")
  | .style =>
      if compiler.prefixing then return some ("autoprefixer", ← find "autoprefixer")
      else return none
  | .plain => return none

def prepareWith (find : String → m Capability) (compiler : Compiler) : m PreparedCompiler := do
  let transform ← compiler.findTransform find
  let post ← compiler.findPost find
  return ⟨compiler, transform, post⟩

end Finding

def lookUp (registry : Registry Capability) (name : String) : Except Failure Capability :=
  match registry.get name with
  | .ok capability => .ok capability
  | .error missing => .error (.missingCapability missing)

def prepare (compiler : Compiler) (registry : Registry Capability) :
    Except Failure PreparedCompiler :=
  compiler.prepareWith (lookUp registry)

/-- The minifier of the family. A plain compiler leaves the contents as they are. -/
def minifier (compiler : Compiler) (registry : Registry Capability) :
    Except Failure (Option (String × Capability)) :=
  match compiler.kind.minifier? with
  | none => .ok none
  | some name => (lookUp registry name).map fun capability => some (name, capability)

def minify (compiler : Compiler) (registry : Registry Capability) (contents : String)
    (options : Options) : Action String := do
  match ← Action.ofExcept (compiler.minifier registry) with
  | none => return contents
  | some (name, capability) => Action.call name capability contents "" options

end Compiler

namespace PreparedCompiler

/-- The transform is told the path of the source, which then takes the extension of the
output. -/
def transformSource (prepared : PreparedCompiler) (source : SourceFile) : Action SourceFile :=
  match prepared.transform with
  | none => return source
  | some (name, capability) => do
      let contents ← Action.call name capability source.contents source.path.toString
        prepared.compiler.transformOptions
      match (source.withContents contents).withSuffix
          prepared.compiler.dialect.outputExtension with
      | .ok source => return source
      | .error fault => Action.fail (.suffix fault)

/-- A module wrapper is told the identifier of the module, a prefixer the path. -/
def postProcess (prepared : PreparedCompiler) (source : SourceFile) : Action SourceFile :=
  match prepared.post with
  | none => return source
  | some (name, capability) => do
      let compiler := prepared.compiler
      let (subject, options) :=
        if compiler.kind = .script then (compiler.moduleId source, compiler.wrapOptions)
        else (source.path.toString, compiler.prefixOptions)
      return source.withContents (← Action.call name capability source.contents subject options)

def compile (prepared : PreparedCompiler) (base path : Path) : Action SourceFile := do
  let source ← Action.readSource base path
  let source ← prepared.transformSource source
  let source ← prepared.postProcess source
  Action.printWhen prepared.compiler.verbose ("+ " ++ source.relative)
  return source

end PreparedCompiler

namespace Stream

/-- The paths of one compiler are compiled one by one before the next stream starts. -/
def compileThen (base : Path) (prepared : PreparedCompiler) (next : Action (List SourceFile)) :
    List Path → Action (List SourceFile)
  | [] => next
  | path :: rest => do
      let source ← prepared.compile base path
      let sources ← compileThen base prepared next rest
      return source :: sources

/-- The sources of all compilers in their order. -/
def drain (base : Path) : List PreparedCompiler → Action (List SourceFile)
  | [] => return []
  | prepared :: rest => do
      let paths ← Action.expand base prepared.compiler.patterns
      compileThen base prepared (drain base rest) paths

end Stream

end AssetBundler

import AssetBundler.Capability.Registry
import AssetBundler.CommonJs.Wrapper
import AssetBundler.Path

/-!
Capabilities that call the routines of libraries. A library is a black box that is given the name
of a routine, the contents and the arguments.
-/

namespace AssetBundler

/-- One call of a routine. -/
structure LibraryCall where
  routine : String
  contents : String
  arguments : Options

abbrev Library := LibraryCall → Except CapabilityFault String

namespace Capability

/-- The directory of the source is searched for imports unless other directories are given. The
extension decides whether the syntax is indented. -/
def sassArguments (path : String) (options : Options) : Options :=
  let options :=
    if Assoc.contains options "include_paths" then options
    else Assoc.insert options "include_paths" (.array [.string (Path.directoryText path)])
  Assoc.insert options "indented" (.bool (path.endsWith ".sass"))

/-- A minifier is only told whether to keep the comments that open with an exclamation mark. -/
def minifierArguments (options : Options) : Options :=
  [("keep_bang_comments", .bool (options.isSet "keep_bang_comments"))]

/-- An adapter makes a capability from a library. -/
structure Adapter where
  capability : String
  library : String
  routine : String
  arguments : String → Options → Options

/-- The adapters in the order in which they are registered. -/
def adapters : List Adapter :=
  [⟨"sass", "sass", "sass.compile", sassArguments⟩,
    ⟨"less", "lesscpy", "lesscpy.compile", fun _ options => options⟩,
    ⟨"stylus", "stylus", "Stylus.compile", fun _ _ => []⟩,
    ⟨"babel", "dukpy", "dukpy.babel_compile", fun _ options => options⟩,
    ⟨"coffee", "dukpy", "dukpy.coffee_compile", fun _ _ => []⟩,
    ⟨"js-minify", "rjsmin", "rjsmin.jsmin", fun _ options => minifierArguments options⟩,
    ⟨"css-minify", "rcssmin", "rcssmin.cssmin", fun _ options => minifierArguments options⟩]

def Adapter.adapt (adapter : Adapter) (library : Library) : Capability :=
  fun contents subject options =>
    library ⟨adapter.routine, contents, adapter.arguments subject options⟩

def adapter? (name : String) : Option Adapter :=
  adapters.find? fun adapter => adapter.capability == name

/-- The adapters whose library is installed are registered after the module wrapper. -/
def standardRegistry (installed : Assoc Library) : Registry Capability :=
  adapters.foldl (fun registry adapter =>
      match Assoc.find? installed adapter.library with
      | some library => registry.register adapter.capability (adapter.adapt library)
      | none => registry)
    (Registry.register [] "commonjs" CommonJs.wrapper)

/-- A notice for each adapter whose library is not installed. -/
def missingNotices (installed : Assoc Library) : List String :=
  (adapters.filter fun adapter => !Assoc.contains installed adapter.library).map fun adapter =>
    "Capability '" ++ adapter.capability ++ "' unavailable: module '" ++ adapter.library ++
      "' not installed"

end Capability

end AssetBundler

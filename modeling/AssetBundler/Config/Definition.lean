import AssetBundler.Json.Basic

/-!
What a configuration says about bundles and their sources.
-/

namespace AssetBundler

/-- A source feeds one compiler of a bundle. Without an extension that of the dialect is taken. -/
structure SourceDefinition where
  name : String
  dialect : String
  files : List String := []
  paths : List String := []
  extension : Option String := none
  scope : String := ""
  autoRequire : Bool := false
  presets : List String := []
  plugins : List String := []
  bare : Bool := false
  prefixing : Bool := false
  prefixOptions : Options := []

/-- A bundle is one output file with the sources that feed it. -/
structure BundleDefinition where
  name : String
  output : String
  sources : List SourceDefinition := []
  sourceMaps : Bool := false
  minify : Bool := false
  minifyOptions : Options := []
  gzip : Bool := false
  commonJs : Bool := false
  polyfill : Option String := none

end AssetBundler

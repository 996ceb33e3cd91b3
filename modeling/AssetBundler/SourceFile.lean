import AssetBundler.Path

/-!
Source files on their way through a compiler.
-/

namespace AssetBundler

/-- The path changes with the transforms, while the origin stays the path of selection. -/
structure SourceFile where
  path : Path
  base : Path
  contents : String
  origin : Path
  deriving DecidableEq, Repr

namespace SourceFile

def ofPath (path base : Path) (contents : String) : SourceFile := ⟨path, base, contents, path⟩

/-- The path below the base, or the whole path when it lies elsewhere. -/
def relative (source : SourceFile) : String :=
  ((source.path.relativeTo? source.base).getD source.path).toString

def withContents (source : SourceFile) (contents : String) : SourceFile :=
  { source with contents := contents }

def withSuffix (source : SourceFile) (suffix : String) : Except Path.SuffixFault SourceFile :=
  match source.path.withSuffix suffix with
  | .ok path => .ok { source with path := path }
  | .error fault => .error fault

end SourceFile

end AssetBundler

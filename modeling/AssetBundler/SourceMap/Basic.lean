import AssetBundler.Json.Printer
import AssetBundler.SourceMap.Vlq
import AssetBundler.Text.Lines

/-!
Source maps of texts that are joined by line feeds. Each line of the joined text is mapped to the
first column of its line in the source that it comes from.
-/

namespace AssetBundler

/-- The sources are listed with their contents in the order of the joined text. -/
structure SourceMap where
  file : CodeText
  sources : List (CodeText × CodeText) := []
  deriving DecidableEq, Repr

namespace SourceMap

def add (map : SourceMap) (name contents : CodeText) : SourceMap :=
  { map with sources := map.sources ++ [(name, contents)] }

/-- A line of a source. Both are counted from zero. -/
structure Target where
  source : Nat
  line : Nat
  deriving DecidableEq, Repr

/-- The lines of the sources in their order. The first source has the given number. -/
def targetsFrom (source : Nat) : List (CodeText × CodeText) → List Target
  | [] => []
  | (_, contents) :: rest =>
      (List.range (Text.pointLines contents).length).map (Target.mk source) ++
        targetsFrom (source + 1) rest

/-- A segment holds the column, then how far the source and its line are from those of the segment
before, then the column in the source. -/
def segment (last target : Target) : String :=
  encodeVlq 0 ++ encodeVlq ((target.source : Int) - last.source) ++
    encodeVlq ((target.line : Int) - last.line) ++ encodeVlq 0

def segmentsFrom (last : Target) : List Target → List String
  | [] => []
  | target :: rest => segment last target :: segmentsFrom target rest

def mappings (map : SourceMap) : String :=
  ";".intercalate (segmentsFrom ⟨0, 0⟩ (targetsFrom 0 map.sources))

/-- A map without mappings serves a text that was changed after the join. -/
def toJson (map : SourceMap) (includesMappings : Bool) : Json CodeText :=
  .object
    [("version", .integer 3), ("file", .string map.file),
      ("sources", .array (map.sources.map fun source => .string source.1)),
      ("sourcesContent", .array (map.sources.map fun source => .string source.2)),
      ("names", .array []),
      ("mappings", .string (if includesMappings then map.mappings else ""))]

def render (map : SourceMap) (includesMappings : Bool) : String :=
  (map.toJson includesMappings).render .spaced

/-- The line that points from an output to its map. -/
def comment (mapName outputName : String) : String :=
  if outputName.endsWith ".css" then "/*# sourceMappingURL=" ++ mapName ++ " */"
  else "//# sourceMappingURL=" ++ mapName

end SourceMap

end AssetBundler

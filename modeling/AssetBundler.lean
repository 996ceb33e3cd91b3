import AssetBundler.Main
import AssetBundler.Proofs.Builder.Bundle
import AssetBundler.Proofs.Builder.Capabilities
import AssetBundler.Proofs.Builder.Unchanged
import AssetBundler.Proofs.Builder.WrittenMap
import AssetBundler.Proofs.Builder.Lifecycle
import AssetBundler.Proofs.FileSystem.Directories
import AssetBundler.Proofs.Gzip.Unpacking
import AssetBundler.Proofs.FileSystem.Stored
import AssetBundler.Proofs.Builder.Footprint
import AssetBundler.Proofs.FileSystem.Agreement
import AssetBundler.Proofs.Selection.Order
import AssetBundler.Proofs.FileSystem.Normal
import AssetBundler.Proofs.Selection.Search
import AssetBundler.Proofs.FileSystem.Growth
import AssetBundler.Proofs.Selection.Downward
import AssetBundler.Proofs.Selection.Grown
import AssetBundler.Proofs.Builder.Rebuild
import AssetBundler.Proofs.FileSystem.Alike
import AssetBundler.Proofs.Selection.Alike
import AssetBundler.Proofs.Builder.Alike
import AssetBundler.Proofs.FileSystem.Removal
import AssetBundler.Proofs.Project.Effect
import AssetBundler.Proofs.FileSystem.Refusal
import AssetBundler.Proofs.Builder.Repetition
import AssetBundler.Proofs.Project.CleanBuild
import AssetBundler.Proofs.Project.Bundles
import AssetBundler.Proofs.Builder.Steps
import AssetBundler.Proofs.Builder.Independence
import AssetBundler.Proofs.Config.Plain
import AssetBundler.Proofs.Text.Blank
import AssetBundler.Proofs.Text.Utf8
import AssetBundler.Proofs.CommandLine.Loading
import AssetBundler.Proofs.Config.Refusals
import AssetBundler.Proofs.Config.RoundTrip
import AssetBundler.Proofs.Compiler.Moved
import AssetBundler.Proofs.Builder.Definition
import AssetBundler.Proofs.Project.Interruption
import AssetBundler.Proofs.CommandLine.ExitCode
import AssetBundler.Proofs.Selection.Containment
import AssetBundler.Proofs.Project.Order
import AssetBundler.Proofs.ModuleId.Remainder
import AssetBundler.Proofs.Compiler.Identifiers
import AssetBundler.Proofs.Selection.Patterns
import AssetBundler.Proofs.Selection.Relocation
import AssetBundler.Proofs.CommonJs.Wrapping
import AssetBundler.Proofs.Path.Relative
import AssetBundler.Proofs.Builder.SourceNames
import AssetBundler.Proofs.Compiler.Files
import AssetBundler.Proofs.SelectorTable
import AssetBundler.Proofs.Compiler.Settings
import AssetBundler.Proofs.Builder.Shortcuts
import AssetBundler.Proofs.Config.Layers
import AssetBundler.Proofs.SourceMap.Numerals
import AssetBundler.Proofs.Config.Required
import AssetBundler.Proofs.Builder.Indentation
import AssetBundler.Proofs.Compiler.Renaming
import AssetBundler.Proofs.Project.Cleaning

import AssetBundler.CommandLine.Run
import AssetBundler.CommonJs.Runtime
import AssetBundler.FileSystem.Changes

/-!
The program on the disk. The directories that a command can name are read first, the command runs
on what was read, and its changes are made afterwards.
-/

namespace AssetBundler.Main

def locationOf (text : String) : Location := (Text.splitOn '/' text).filter (· != "")

def textOf (location : Location) : String := "/" ++ "/".intercalate location

/-- The directories above a location. -/
def ancestors : Location → Location → List (Location × Node)
  | _, [] => []
  | above, name :: rest => (above ++ [name], .directory) :: ancestors (above ++ [name]) rest

/-- Everything below a directory. A link is read with its full target, and what cannot be read is
left out. -/
partial def readBelow (location : Location) : IO (List (Location × Node)) := do
  let folder : IO.FS.DirEntry := ⟨textOf location.dropLast, location.getLast?.getD ""⟩
  let mut nodes := []
  for entry in ← folder.path.readDir do
    let here := location ++ [entry.fileName]
    try
      match (← entry.path.symlinkMetadata).type with
      | .dir => nodes := nodes ++ (here, .directory) :: (← readBelow here)
      | .file =>
          let bytes ← IO.FS.readBinFile entry.path
          nodes := nodes ++ [(here, .file bytes.toList)]
      | .symlink =>
          let target ← IO.FS.realPath entry.path
          nodes := nodes ++ [(here, .link target.toString)]
      | .other => pure ()
    catch _ => pure ()
  return nodes

def isBelow (location : Location) (nodes : List (Location × Node)) : Bool :=
  nodes.any fun entry => entry.1 == location

/-- The current directory and the directories among the arguments. -/
def readTree (directory : Location) (arguments : List String) : IO Tree := do
  let mut nodes := ancestors [] directory ++ (← readBelow directory)
  for argument in arguments do
    try
      let path ← IO.FS.realPath argument
      let location := locationOf path.toString
      if (← path.isDir) && !isBelow location nodes then
        nodes := nodes ++ ancestors [] location ++ (← readBelow location)
    catch _ => pure ()
  return ⟨nodes⟩

/-- The module runtime is part of the program and stands in the tree alone. -/
def runtimeLocation : Location := ["usr", "share", "asset-bundler", "commonjs-require.js"]

def withRuntime (tree : Tree) : Tree :=
  ⟨tree.nodes ++ ancestors [] runtimeLocation.dropLast ++
    [(runtimeLocation, .file (Utf8.encode CommonJs.runtime))]⟩

def applyChanges (before after : Tree) : IO Unit := do
  for location in before.created after do
    IO.FS.createDirAll (textOf location)
  for location in before.removed after do
    IO.FS.removeFile (textOf location)
  for (location, node) in before.written after do
    match node with
    | .file bytes => IO.FS.writeBinFile (textOf location) ⟨bytes.toArray⟩
    | _ => pure ()

/-- Hundredths of a second. -/
def seconds (milliseconds : Nat) : String :=
  let hundredths := (milliseconds + 5) / 10
  let rest := hundredths % 100
  toString (hundredths / 100) ++ "." ++ (if rest < 10 then "0" else "") ++ toString rest

end AssetBundler.Main

open AssetBundler

/-- The program. -/
def main (arguments : List String) : IO UInt32 := do
  let directory := Main.locationOf (← IO.currentDir).toString
  let before := Main.withRuntime (← Main.readTree directory arguments)
  let start ← IO.monoMsNow
  let action := CommandLine.run (.libraries []) (Main.textOf Main.runtimeLocation) arguments
  let (result, after) := action.run ⟨before, directory, []⟩
  Main.applyChanges before after.tree
  let elapsed := (← IO.monoMsNow) - start
  let events := after.events.reverse
  IO.print (Console.outputText (Main.seconds elapsed) events)
  IO.eprint (Console.complaintText "" (CommandLine.showsLevel arguments) events)
  match result with
  | .ok code => return code.toUInt32
  | .error failure =>
      IO.eprintln (failure.label ++ ": " ++ failure.message)
      return 1

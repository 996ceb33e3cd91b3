import AssetBundler.Failure

/-!
The directory and the file name of an output.
-/

namespace AssetBundler.Output

/-- A backslash counts as a slash. -/
def slashed (output : String) : List Char :=
  output.toList.map fun c => if c = '\\' then '/' else c

/-- The name stands behind the last slash and may not be blank. Without a slash the output lies
in the current directory. -/
def split (output : String) : Except Failure (String × String) :=
  let text := slashed output
  let name := (text.reverse.takeWhile (· != '/')).reverse
  let directory := text.take (text.length - name.length - 1)
  if (Text.trim name).isEmpty then .error (.invalidOutput (String.ofList text))
  else if directory ≠ [] then .ok (String.ofList directory, String.ofList name)
  else if text.head? = some '/' then .ok ("/", String.ofList name)
  else .ok (".", String.ofList name)

/-- The names of the map and of the compressed copy. -/
def mapName (name : String) : String := name ++ ".map"

def gzipName (name : String) : String := name ++ ".gz"

/-- The names of all files that a build can write for an output. -/
def artifactNames (name : String) : List String := [name, mapName name, gzipName name]

end AssetBundler.Output

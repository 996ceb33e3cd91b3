import AssetBundler.Assoc
import AssetBundler.Text.Quoted

/-!
The files and directories that a compiler was asked for. A key keeps the place of its first entry
and the kind of its last one, while the patterns record every entry.
-/

namespace AssetBundler

inductive SelectorKind where
  | file
  | directory
  deriving DecidableEq, Repr

structure Selector where
  key : String
  kind : SelectorKind
  deriving DecidableEq, Repr

def Selector.isFile (selector : Selector) : Bool := selector.kind == .file

structure SelectorTable where
  kinds : Assoc SelectorKind := []
  patterns : List String := []
  deriving DecidableEq, Repr

namespace SelectorTable

/-- A directory has to be named with a separator at its end. -/
structure OpenDirectory where
  path : String
  deriving DecidableEq, Repr

def OpenDirectory.message (fault : OpenDirectory) : String :=
  "Directory name must end with \"/\": " ++ Text.quoted fault.path

def isSeparator (c : Char) : Bool := c == '/' || c == '\\'

def endsWithSeparator (path : String) : Bool := path.toList.getLast?.any isSeparator

def directoryPattern (path extension : String) : String := path ++ "**/*" ++ extension

def addFile (table : SelectorTable) (path : String) : SelectorTable :=
  ⟨Assoc.insert table.kinds path .file, table.patterns ++ [path]⟩

/-- Every file below the directory is selected whose name ends with the extension. -/
def addDirectory (table : SelectorTable) (path extension : String) :
    Except OpenDirectory SelectorTable :=
  if endsWithSeparator path then
    .ok ⟨Assoc.insert table.kinds path .directory,
      table.patterns ++ [directoryPattern path extension]⟩
  else .error ⟨path⟩

def entries (table : SelectorTable) : List Selector :=
  table.kinds.map fun entry => ⟨entry.1, entry.2⟩

def contains (table : SelectorTable) (key : String) : Bool := Assoc.contains table.kinds key

def size (table : SelectorTable) : Nat := table.kinds.length

end SelectorTable

end AssetBundler

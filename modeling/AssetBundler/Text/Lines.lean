import AssetBundler.Text.CodePoint
import AssetBundler.Text.Utf8

/-!
Lines of text.
-/

namespace AssetBundler.Text

/-- A carriage return, also one before a line feed, becomes a line feed. -/
def unifyNewlines : List Char → List Char
  | [] => []
  | '\r' :: '\n' :: rest => '\n' :: unifyNewlines rest
  | '\r' :: rest => '\n' :: unifyNewlines rest
  | c :: rest => c :: unifyNewlines rest

/-- The parts between separators. There is one part more than there are separators. -/
def splitAt {Symbol : Type} [DecidableEq Symbol] (separator : Symbol) :
    List Symbol → List (List Symbol)
  | [] => [[]]
  | c :: rest =>
      if c = separator then [] :: splitAt separator rest
      else
        match splitAt separator rest with
        | [] => [[c]]
        | part :: parts => (c :: part) :: parts

def splitOn (separator : Char) (text : String) : List String :=
  (splitAt separator text.toList).map String.ofList

def pointLines (text : CodeText) : List CodeText := splitAt (.ofChar '\n') text

def lines (text : String) : List String := splitOn '\n' text

def joinLines (texts : List String) : String := "\n".intercalate texts

end AssetBundler.Text

import AssetBundler.Json.Basic
import AssetBundler.Decimal.Shortest

/-!
Writing of JSON text in ASCII.
-/

namespace AssetBundler.Json

/-- What a writer decides: the separators, the order of the fields, and whether the delete
character is escaped. -/
structure Layout where
  itemSeparator : String
  nameSeparator : String
  sortsFields : Bool
  escapesDelete : Bool

/-- A blank follows each separator, and the fields keep their order. -/
def Layout.spaced : Layout := ⟨", ", ": ", false, true⟩

/-- Nothing follows a separator, and the fields are sorted. -/
def Layout.compact : Layout := ⟨",", ":", true, false⟩

/-- Four lower-case hexadecimal digits. -/
def unitEscape (unit : Nat) : List Char :=
  let digits := Nat.toDigits 16 unit
  '\\' :: 'u' :: (List.replicate (4 - digits.length) '0' ++ digits)

/-- A character beyond the sixteen-bit range is written as two surrogates. -/
def codeEscape (code : Nat) : List Char :=
  if code < 0x10000 then unitEscape code
  else
    unitEscape (0xD800 + (code - 0x10000) / 0x400) ++
      unitEscape (0xDC00 + (code - 0x10000) % 0x400)

def writeChar (layout : Layout) (c : Char) : List Char :=
  if c = '"' then ['\\', '"']
  else if c = '\\' then ['\\', '\\']
  else if c = '\n' then ['\\', 'n']
  else if c = '\r' then ['\\', 'r']
  else if c = '\t' then ['\\', 't']
  else if c = '\x0c' then ['\\', 'f']
  else if c = '\x08' then ['\\', 'b']
  else if c = '\x7f' ∧ layout.escapesDelete = false then [c]
  else if ' ' ≤ c ∧ c < '\x7f' then [c]
  else codeEscape c.toNat

/-- A surrogate is written by its own number. -/
def writePoint (layout : Layout) (point : CodePoint) : List Char :=
  match point.char? with
  | some c => writeChar layout c
  | none => unitEscape point.val

def writeString (layout : Layout) (text : CodeText) : List Char :=
  '"' :: (text.flatMap (writePoint layout) ++ ['"'])

/-- The values that are no decimal have names. -/
def realText (value : Binary64) : String :=
  if value = .notANumber then "NaN"
  else if value = .infinity then "Infinity"
  else if value = .negativeInfinity then "-Infinity"
  else value.text

section Values

variable {Text : Type} [HasPoints Text]

mutual

def write (layout : Layout) : Json Text → List Char
  | .null => "null".toList
  | .bool true => "true".toList
  | .bool false => "false".toList
  | .integer value => (toString value).toList
  | .real value => (realText value).toList
  | .string text => writeString layout (HasPoints.points text)
  | .array items => '[' :: (writeItems layout items ++ [']'])
  | .object fields =>
      let written := writeFields layout fields
      let ordered :=
        if layout.sortsFields then
          written.mergeSort fun first second => !List.lex second.1 first.1 (· < ·)
        else written
      '\x7b' :: (layout.itemSeparator.toList.intercalate (ordered.map Prod.snd) ++ ['\x7d'])

def writeItems (layout : Layout) : List (Json Text) → List Char
  | [] => []
  | [item] => write layout item
  | item :: rest => write layout item ++ layout.itemSeparator.toList ++ writeItems layout rest

/-- Each field is written beside its name. -/
def writeFields (layout : Layout) : List (Text × Json Text) → List (CodeText × List Char)
  | [] => []
  | (name, value) :: rest =>
      let points := HasPoints.points name
      (points, writeString layout points ++ layout.nameSeparator.toList ++ write layout value) ::
        writeFields layout rest

end

def render (layout : Layout) (value : Json Text) : String := String.ofList (write layout value)

end Values

/-- The spaced text of a string alone. -/
def quote (text : CodeText) : String := String.ofList (writeString .spaced text)

end AssetBundler.Json

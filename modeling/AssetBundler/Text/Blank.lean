/-!
Blank characters, and text without the blanks at its ends.
-/

namespace AssetBundler.Text

/-- A blank is a character that the Unicode rules count as white space, or one of the four
separators of the ASCII control range. -/
def isBlank (c : Char) : Bool :=
  let code := c.toNat
  (0x09 ≤ code && code ≤ 0x0D) || (0x1C ≤ code && code ≤ 0x20) || code == 0x85 || code == 0xA0 ||
    code == 0x1680 || (0x2000 ≤ code && code ≤ 0x200A) || code == 0x2028 || code == 0x2029 ||
    code == 0x202F || code == 0x205F || code == 0x3000

/-- The blanks at the end are dropped. -/
def trimEnd (cs : List Char) : List Char :=
  (cs.reverse.dropWhile isBlank).reverse

/-- The blanks at both ends are dropped. -/
def trim (cs : List Char) : List Char :=
  trimEnd (cs.dropWhile isBlank)

/-- The text without the blanks at its ends. -/
def strip (text : String) : String :=
  String.ofList (trim text.toList)

end AssetBundler.Text

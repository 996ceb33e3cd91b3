/-!
Texts as code points. Besides the characters these are the surrogates. Two of them, a leading one
and a trailing one behind it, stand for a character, and a text may also hold them alone.
-/

namespace AssetBundler

/-- The number of a character or of a surrogate. -/
abbrev CodePoint := Fin 0x110000

namespace CodePoint

theorem toNat_lt (c : Char) : c.toNat < 0x110000 := by
  have valid := c.valid
  simp only [UInt32.isValidChar, Nat.isValidChar] at valid
  simp only [Char.toNat]
  omega

def ofChar (c : Char) : CodePoint := ⟨c.toNat, toNat_lt c⟩

/-- The code point of a number that is small enough. -/
def ofNumber (number : Nat) : CodePoint := Fin.ofNat 0x110000 number

def isLeading (point : CodePoint) : Bool := 0xD800 ≤ point.val && point.val ≤ 0xDBFF

def isTrailing (point : CodePoint) : Bool := 0xDC00 ≤ point.val && point.val ≤ 0xDFFF

/-- The character beyond the sixteen-bit range that two surrogates stand for. -/
def ofPair (leading trailing : CodePoint) : CodePoint :=
  ofNumber (0x10000 + (leading.val - 0xD800) * 0x400 + (trailing.val - 0xDC00))

/-- A surrogate is no character. -/
def char? (point : CodePoint) : Option Char :=
  if point.isLeading || point.isTrailing then none else some (Char.ofNat point.val)

end CodePoint

/-- A text that may hold surrogates. -/
abbrev CodeText := List CodePoint

namespace CodeText

def ofString (text : String) : CodeText := text.toList.map CodePoint.ofChar

instance : Coe String CodeText := ⟨ofString⟩

/-- The text as it is shown. The replacement character stands in for a surrogate. -/
def shown (text : CodeText) : String :=
  String.ofList (text.map fun point => point.char?.getD '\uFFFD')

end CodeText

/-- Texts that are made of code points. -/
class HasPoints (Text : Type) where
  points : Text → CodeText

instance : HasPoints CodeText := ⟨id⟩

instance : HasPoints String := ⟨CodeText.ofString⟩

end AssetBundler

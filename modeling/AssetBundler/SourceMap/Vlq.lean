/-!
Whole numbers as digits of base sixty-four. A digit carries five bits, the lowest ones first, and
its highest bit says that more digits follow. The lowest bit of all is the sign.
-/

namespace AssetBundler.SourceMap

def alphabet : List Char :=
  "ABCDEFGHIJKLMNOPQRSTUVWXYZabcdefghijklmnopqrstuvwxyz0123456789+/".toList

def digitChar (digit : Nat) : Char := alphabet.getD digit 'A'

/-- The sign goes to the lowest bit. -/
def foldSign (value : Int) : Nat :=
  if value < 0 then 2 * value.natAbs + 1 else 2 * value.natAbs

/-- At least one digit is written. -/
def encodeDigits (number : Nat) : List Nat :=
  if number < 32 then [number]
  else (number % 32 + 32) :: encodeDigits (number / 32)
  termination_by number
  decreasing_by omega

def encodeVlq (value : Int) : String :=
  String.ofList ((encodeDigits (foldSign value)).map digitChar)

example : (encodeVlq 0, encodeVlq 1, encodeVlq (-1), encodeVlq 16) = ("A", "C", "D", "gB") := by
  decide +kernel

end AssetBundler.SourceMap
